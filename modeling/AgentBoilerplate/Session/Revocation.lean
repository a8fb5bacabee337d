import AgentBoilerplate.Session.Shape

namespace AgentBoilerplate.Session

open Effects Collections

-- A successor is inserted only while some token of its family is stored.
def ExtendsLive (world : SessionWorld) : SessionCall → Prop
  | .insert token => ∃ row ∈ world.tokens, row.familyId = token.familyId
  | _ => True

instance (world : SessionWorld) : (request : SessionCall) → Decidable (ExtendsLive world request)
  | .insert token => inferInstanceAs
      (Decidable (∃ row ∈ world.tokens.rows, row.familyId = token.familyId))
  | .findUserByEmail _ | .findByHash _ | .markConsumed _ _ | .delete _ | .deleteFamily _
  | .deleteExpired _ | .recordEvent _ | .issueToken _ | .utcNow | .newUuid | .newPlaintext =>
      isTrue trivial

-- The calls made so far deleted the family.
def deletedFamily (familyId : Uuid) (past : List (Event SessionPorts)) : Bool :=
  past.any fun
    | ⟨.deleteFamily id, .ok ()⟩ => id = familyId
    | _ => false

theorem deletedFamily_append (familyId : Uuid) (past : List (Event SessionPorts))
    (event : Event SessionPorts) :
    deletedFamily familyId (past ++ [event]) = true ↔
      deletedFamily familyId past = true ∨ event = ⟨.deleteFamily familyId, .ok ()⟩ := by
  rw [deletedFamily, List.any_append, Bool.or_eq_true]
  refine or_congr Iff.rfl ?_
  simp only [List.any_cons, List.any_nil, Bool.or_false]
  split
  · simp
  · rename_i h
    simp only [Bool.false_eq_true, false_iff]
    rintro rfl
    exact h familyId rfl

section Revocation

variable {prims : Primitives} {env : SessionEnv} {ttlDays : Int} {familyId : Uuid} {ι : Type}
  {ops : ι → SessionOp}

-- A request that presents a token of the family, and nothing else.
def OfFamily (prims : Primitives) (familyId : Uuid) (world : SessionWorld) (op : SessionOp) :
    Prop :=
  ∃ presented, op.presented? = some presented ∧ ∀ row ∈ world.tokens,
    row.tokenHash = RefreshToken.hash prims presented → row.familyId = familyId

-- Whatever is found under a presented hash is of the family.
def FindsFamily (prims : Primitives) (familyId : Uuid) (ops : ι → SessionOp)
    (event : Event SessionPorts) : Prop :=
  ∀ i presented stored, (ops i).presented? = some presented →
    event = ⟨.findByHash (RefreshToken.hash prims presented), .ok (some stored)⟩ →
    stored.familyId = familyId

-- What holds between any two calls, when every request presents a token of one
-- family.
structure OneFamily (prims : Primitives) (familyId : Uuid) (ops : ι → SessionOp)
    (c : Sessions ι) : Prop where
  stored : ∀ i presented, (ops i).presented? = some presented → ∀ row ∈ c.store.tokens,
    row.tokenHash = RefreshToken.hash prims presented → row.familyId = familyId
  answered : c.Answered (FindsFamily prims familyId ops)
  threaded : c.Threaded fun i past p =>
    ∃ presented, (ops i).presented? = some presented ∧ RotateShape prims presented past p

theorem OneFamily.start {world : SessionWorld}
    (hops : ∀ i, OfFamily prims familyId world (ops i)) :
    OneFamily prims familyId ops (sessions prims ttlDays world ops) where
  stored i presented h row hrow hhash := by
    obtain ⟨token, htoken, hfamily⟩ := hops i
    obtain rfl := Option.some.inj (htoken.symm.trans h)
    exact hfamily row hrow hhash
  answered := Config.answered_start _ _ _
  threaded := by
    refine Config.threaded_start (fun i => ?_) world
    obtain ⟨presented, h, -⟩ := hops i
    exact (presented_shape prims ttlDays presented h).mono fun _ _ hs => ⟨presented, h, hs⟩

-- The family a rotate inserts into is the family of the token it found.
theorem OneFamily.insert {c : Sessions ι} (h : OneFamily prims familyId ops c) {i : ι}
    {token : RefreshToken} {next : Except PortError Unit → Program SessionPorts SessionOutcome}
    (hrest : (c.threads i).rest = .call (.insert token) next) : token.familyId = familyId := by
  obtain ⟨presented, hop, hshape⟩ := h.threaded.here hrest
  obtain ⟨-, stored, hfound, -, hfamily, -⟩ := hshape.insert token next rfl
  rw [hfamily]
  exact h.answered i _ hfound i presented stored hop rfl

variable [DecidableEq ι]

theorem OneFamily.advance {c : Sessions ι} (h : OneFamily prims familyId ops c) {i : ι}
    {request : SessionCall} {next : request.Answer → Program SessionPorts SessionOutcome}
    (hrest : (c.threads i).rest = .call request next) :
    OneFamily prims familyId ops (c.advance env.handle i request next) where
  stored j presented hop row hrow hhash := by
    rcases SessionEnv.mem_handle_tokens request hrow with hold | rfl | ⟨at_, old, hold, -, rfl⟩
    · exact h.stored j presented hop row hold hhash
    · exact h.insert hrest
    · exact h.stored j presented hop old hold hhash
  answered := by
    refine h.answered.advance ?_
    intro j presented stored hop hevent
    obtain ⟨rfl, hans⟩ := Event.mk.inj hevent
    obtain ⟨hmem, hhash⟩ := SessionEnv.handle_findByHash (eq_of_heq hans)
    exact h.stored j presented hop stored hmem hhash
  threaded := h.threaded.advance hrest

-- Once deleted, the family has no row that a guarded call could extend.
theorem gone_handle {world : SessionWorld} (request : SessionCall)
    (hgone : ∀ row ∈ world.tokens, row.familyId ≠ familyId) (hguard : ExtendsLive world request) :
    ∀ row ∈ (env.handle request world).2.tokens, row.familyId ≠ familyId := by
  intro row hrow
  rcases SessionEnv.mem_handle_tokens request hrow with hold | rfl | ⟨at_, old, hold, -, rfl⟩
  · exact hgone row hold
  · obtain ⟨old, hold, hfamily⟩ := hguard
    exact hfamily ▸ hgone old hold
  · exact hgone old hold

theorem gone_run {c : Sessions ι} {schedule : List ι}
    (hlive : c.Respects env.handle (fun _ world _ request => ExtendsLive world request) schedule)
    (hgone : ∀ row ∈ c.store.tokens, row.familyId ≠ familyId) :
    ∀ row ∈ (c.run env.handle schedule).store.tokens, row.familyId ≠ familyId :=
  Config.run_induction (fun c : Sessions ι => ∀ row ∈ c.store.tokens, row.familyId ≠ familyId)
    (fun _ _ request _ hgone _ hguard => gone_handle request hgone hguard) hgone hlive

-- From the start of a run, a deletion on record leaves the family empty.
theorem deleted_gone {world : SessionWorld} {schedule : List ι}
    (hlive : (sessions prims ttlDays world ops).Respects env.handle
      (fun _ world _ request => ExtendsLive world request) schedule)
    (i : ι) (hi : deletedFamily familyId
      (((sessions prims ttlDays world ops).run env.handle schedule).threads i).past = true) :
    ∀ row ∈ ((sessions prims ttlDays world ops).run env.handle schedule).store.tokens,
      row.familyId ≠ familyId := by
  refine Config.run_induction (fun c : Sessions ι =>
    ∀ i, deletedFamily familyId (c.threads i).past = true →
      ∀ row ∈ c.store.tokens, row.familyId ≠ familyId) ?_ ?_ hlive i hi
  · intro c i request next h hrest hguard j hj
    by_cases hji : j = i
    · subst hji
      rw [Config.advance_self, deletedFamily_append] at hj
      rcases hj with hj | hevent
      · exact gone_handle request (h j hj) hguard
      · obtain ⟨rfl, hok⟩ := Event.mk.inj hevent
        exact fun row hrow => SessionEnv.handle_deleteFamily (eq_of_heq hok) hrow
    · rw [Config.advance_of_ne _ _ _ _ hji] at hj
      exact gone_handle request (h j hj) hguard
  · simp [sessions, Config.start, deletedFamily]

-- A request that starts after the deletion never finds its token.
theorem late_fails {c : Sessions ι} {schedule : List ι} {i : ι}
    (hlive : c.Respects env.handle (fun _ world _ request => ExtendsLive world request) schedule)
    (hone : OneFamily prims familyId ops c)
    (hgone : ∀ row ∈ c.store.tokens, row.familyId ≠ familyId) (hlate : (c.threads i).past = []) :
    rotated ((c.run env.handle schedule).threads i) = false := by
  let Late : Sessions ι → Prop := fun c =>
    OneFamily prims familyId ops c ∧ (∀ row ∈ c.store.tokens, row.familyId ≠ familyId) ∧
      ∀ presented stored, (ops i).presented? = some presented →
        ¬ Found prims presented (c.threads i).past stored
  have hrun : Late (c.run env.handle schedule) := by
    refine Config.run_induction Late ?_ ⟨hone, hgone, by simp [Found, hlate]⟩ hlive
    rintro c j request next ⟨hone, hgone, hnever⟩ hrest hguard
    refine ⟨hone.advance hrest, gone_handle request hgone hguard, ?_⟩
    intro presented stored hop hfound
    by_cases hij : i = j
    · subst hij
      rw [Config.advance_self, Found, List.mem_append, List.mem_singleton] at hfound
      rcases hfound with hfound | hevent
      · exact hnever presented stored hop hfound
      · obtain ⟨rfl, hans⟩ := Event.mk.inj hevent
        obtain ⟨hmem, hhash⟩ := SessionEnv.handle_findByHash (eq_of_heq hans.symm)
        exact hgone stored hmem (hone.stored i presented hop stored hmem hhash)
    · rw [Config.advance_of_ne _ _ _ _ hij] at hfound
      exact hnever presented stored hop hfound
  obtain ⟨hone, -, hnever⟩ := hrun
  rw [Bool.eq_false_iff]
  intro hrotated
  obtain ⟨tokens, hdone⟩ := (rotated_iff _).mp hrotated
  obtain ⟨presented, hop, hshape⟩ := hone.threaded.here hdone
  obtain ⟨-, stored, hfound⟩ := hshape.success tokens rfl
  exact hnever presented stored hop hfound

-- Rotates and revokes on the tokens of one family, whose successors are only
-- inserted while the family is stored: once the family is deleted it stays
-- empty, and no rotate that starts afterwards succeeds.
theorem revocation_final {world : SessionWorld} {before after : List ι}
    (hops : ∀ i, OfFamily prims familyId world (ops i))
    (hlive : (sessions prims ttlDays world ops).Respects env.handle
      (fun _ world _ request => ExtendsLive world request) (before ++ after))
    (hdeleted : ∃ i, deletedFamily familyId
      (((sessions prims ttlDays world ops).run env.handle before).threads i).past = true) :
    (∀ row ∈ ((sessions prims ttlDays world ops).run env.handle (before ++ after)).store.tokens,
      row.familyId ≠ familyId) ∧
    ∀ i, (((sessions prims ttlDays world ops).run env.handle before).threads i).past = [] →
      rotated (((sessions prims ttlDays world ops).run env.handle
        (before ++ after)).threads i) = false := by
  obtain ⟨i, hi⟩ := hdeleted
  obtain ⟨hbefore, hafter⟩ := (Config.respects_append _ _ _ _ _).mp hlive
  have hgone := deleted_gone hbefore i hi
  have hone : OneFamily prims familyId ops
      ((sessions prims ttlDays world ops).run env.handle before) :=
    Config.run_induction (OneFamily prims familyId ops)
      (fun c i request next h hrest _ => h.advance hrest) (OneFamily.start hops) hbefore
  rw [Config.run_append]
  constructor
  · exact gone_run hafter hgone
  · exact fun i hlate => late_fails hafter hone hgone hlate

end Revocation

-- A client is past its mark when the logout deletes the family; the successor
-- it inserts afterwards is then rotated by a third request.
def inFlight : Fin 3 → SessionOp
  | 0 => .rotate Sample.presented
  | 1 => .revoke Sample.presented
  | 2 => .rotate (Sample.plaintext 0)

theorem revoked_family_returns :
    let start := sessions Sample.prims 30 Sample.world inFlight
    let handle := (Sample.env .postgres).handle
    let revoked := start.run handle (List.replicate 7 0 ++ [1, 1])
    let later := revoked.run handle ([0, 0] ++ List.replicate 9 2)
    deletedFamily Sample.token.familyId (revoked.threads 1).past = true ∧
      (revoked.threads 2).past.isEmpty = true ∧ rotated (later.threads 2) = true ∧
      ∃ row ∈ later.store.tokens.rows, row.familyId = Sample.token.familyId := by
  decide

-- The logout comes after the rotate.
theorem revocation_final_in_turn :
    let start := sessions Sample.prims 30 Sample.world inFlight
    let handle := (Sample.env .postgres).handle
    let revoked := start.run handle (List.replicate 9 0 ++ [1, 1])
    let later := start.run handle (List.replicate 9 0 ++ [1, 1] ++ List.replicate 9 2)
    rotated (revoked.threads 0) = true ∧
      (∀ row ∈ later.store.tokens, row.familyId ≠ Sample.token.familyId) ∧
      ∀ i, (revoked.threads i).past = [] → rotated (later.threads i) = false := by
  refine ⟨by decide, revocation_final ?_ (by decide) ⟨1, by decide⟩⟩
  intro i
  have hfamily : ∀ row ∈ Sample.world.tokens, row.familyId = Sample.token.familyId :=
    fun row hrow => (List.mem_singleton.mp hrow) ▸ rfl
  match i with
  | 0 | 1 | 2 => exact ⟨_, rfl, fun row hrow _ => hfamily row hrow⟩

end AgentBoilerplate.Session
