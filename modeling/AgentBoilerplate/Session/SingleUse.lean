import AgentBoilerplate.Session.Shape

namespace AgentBoilerplate.Session

open Effects Collections

-- A rotate marks a token that is still stored and still unconsumed.
def MarksLive (world : SessionWorld) : SessionCall → Prop
  | .markConsumed id _ => ∃ token ∈ world.tokens, token.id = id ∧ token.consumedAt = none
  | _ => True

instance (world : SessionWorld) : (request : SessionCall) → Decidable (MarksLive world request)
  | .markConsumed id _ => inferInstanceAs
      (Decidable (∃ token ∈ world.tokens.rows, token.id = id ∧ token.consumedAt = none))
  | .findUserByEmail _ | .findByHash _ | .insert _ | .delete _ | .deleteFamily _
  | .deleteExpired _ | .recordEvent _ | .issueToken _ | .utcNow | .newUuid | .newPlaintext =>
      isTrue trivial

theorem marked_append (past : List (Event SessionPorts)) (event : Event SessionPorts) :
    Marked (past ++ [event]) ↔ Marked past ∨ ∃ id at_, event = ⟨.markConsumed id at_, .ok ()⟩ := by
  simp only [Marked, List.mem_append, List.mem_singleton, exists_or, eq_comm]

section SingleUse

variable {prims : Primitives} {env : SessionEnv} {ttlDays : Int} {presented : String} {ι : Type}

-- `origin` is the identifier under which the presented token was first stored.
-- Nothing stored or answered later can be mistaken for that token.
structure Admissible (prims : Primitives) (presented : String) (origin : Uuid → Prop)
    (event : Event SessionPorts) : Prop where
  found : ∀ stored, event = ⟨.findByHash (RefreshToken.hash prims presented), .ok (some stored)⟩ →
    origin stored.id
  fresh : ∀ id, event = ⟨.newUuid, id⟩ → ¬ origin id
  unrelated : ∀ plaintext, event = ⟨.newPlaintext, plaintext⟩ →
    RefreshToken.hash prims plaintext ≠ RefreshToken.hash prims presented

-- What holds between any two calls: only the origin carries the presented
-- hash, and once some rotate has marked it, it stays consumed and no other
-- rotate has marked it.
structure SingleUse (prims : Primitives) (presented : String) (origin : Uuid → Prop)
    (c : Sessions ι) : Prop where
  stored : ∀ row ∈ c.store.tokens,
    row.tokenHash = RefreshToken.hash prims presented → origin row.id
  answered : c.Answered (Admissible prims presented origin)
  threaded : c.Threaded fun _ => RotateShape prims presented
  consumed : ∀ i, Marked (c.threads i).past → ∀ row ∈ c.store.tokens, origin row.id →
    row.consumedAt ≠ none
  one : ∀ i j, Marked (c.threads i).past → Marked (c.threads j).past → i = j

variable {origin : Uuid → Prop}

theorem SingleUse.start {world : SessionWorld}
    (hstored : ∀ row ∈ world.tokens, row.tokenHash = RefreshToken.hash prims presented →
      origin row.id) :
    SingleUse prims presented origin
      (sessions prims ttlDays world fun _ : ι => .rotate presented) where
  stored := hstored
  answered := Config.answered_start _ _ _
  threaded := Config.threaded_start (fun _ => rotate_shape prims ttlDays presented) world
  consumed := by simp [sessions, Config.start, Marked]
  one := by simp [sessions, Config.start, Marked]

theorem SingleUse.admissible {world : SessionWorld}
    (hstored : ∀ row ∈ world.tokens, row.tokenHash = RefreshToken.hash prims presented →
      origin row.id)
    (huuid : ∀ n, ¬ origin (env.uuid n))
    (hplaintext : ∀ n, RefreshToken.hash prims (env.plaintext n) ≠
      RefreshToken.hash prims presented)
    (request : SessionCall) :
    Admissible prims presented origin ⟨request, (env.handle request world).1⟩ where
  found stored h := by
    cases request with
    | findByHash hash =>
        simp only [Event.mk.injEq, SessionCall.findByHash.injEq] at h
        obtain ⟨rfl, h⟩ := h
        obtain ⟨hmem, hhash⟩ := SessionEnv.handle_findByHash (eq_of_heq h)
        exact hstored stored hmem hhash
    | _ => simp at h
  fresh id h := by
    cases request with
    | newUuid =>
        obtain rfl : (env.handle .newUuid world).1 = id := by simpa using h
        exact huuid _
    | _ => simp at h
  unrelated plaintext h := by
    cases request with
    | newPlaintext =>
        obtain rfl : (env.handle .newPlaintext world).1 = plaintext := by simpa using h
        exact hplaintext _
    | _ => simp at h

variable [DecidableEq ι]

theorem SingleUse.advance {c : Sessions ι}
    (horigin : ∀ a b, origin a → origin b → a = b)
    (huuid : ∀ n, ¬ origin (env.uuid n))
    (hplaintext : ∀ n, RefreshToken.hash prims (env.plaintext n) ≠
      RefreshToken.hash prims presented)
    (h : SingleUse prims presented origin c) {i : ι} {request : SessionCall}
    {next : request.Answer → Program SessionPorts SessionOutcome}
    (hrest : (c.threads i).rest = .call request next) (hguard : MarksLive c.store request) :
    SingleUse prims presented origin (c.advance env.handle i request next) := by
  have hshape := h.threaded.here hrest
  have hpast := h.answered i
  -- a mark is of the origin, which is stored unconsumed
  have hmark : ∀ id at_, request = .markConsumed id at_ → origin id := by
    rintro id at_ rfl
    obtain ⟨stored, hfound, -, rfl⟩ := hshape.mark id at_ next rfl
    exact (hpast _ hfound).found stored rfl
  -- an inserted row is neither the origin nor carries its hash
  have hinsert : ∀ token, request = .insert token → ¬ origin token.id ∧
      token.tokenHash ≠ RefreshToken.hash prims presented := by
    rintro token rfl
    obtain ⟨-, _, -, -, -, -, hid, plaintext, hplain, hhash⟩ := hshape.insert token next rfl
    exact ⟨(hpast _ hid).fresh _ rfl, hhash ▸ (hpast _ hplain).unrelated _ rfl⟩
  -- no thread marks after another: the mark would not be of a live token
  have hfirst : ∀ id at_ j, request = .markConsumed id at_ → ¬ Marked (c.threads j).past := by
    rintro id at_ j rfl hj
    obtain ⟨token, htoken, hid, hlive⟩ := hguard
    exact h.consumed j hj token htoken (hid ▸ hmark id at_ rfl) hlive
  have hmarked : ∀ j, Marked ((c.advance env.handle i request next).threads j).past →
      Marked (c.threads j).past ∨ j = i ∧ ∃ id at_, request = .markConsumed id at_ ∧
        HEq (env.handle request c.store).1 (Except.ok () : Except PortError Unit) := by
    intro j hj
    by_cases hji : j = i
    · subst hji
      rw [Config.advance_self, marked_append] at hj
      rcases hj with hj | ⟨id, at_, hevent⟩
      · exact Or.inl hj
      · obtain ⟨hreq, hans⟩ := Event.mk.inj hevent
        exact Or.inr ⟨rfl, id, at_, hreq, hans⟩
    · rw [Config.advance_of_ne _ _ _ _ hji] at hj
      exact Or.inl hj
  refine ⟨?_, h.answered.advance (SingleUse.admissible h.stored huuid hplaintext request),
    h.threaded.advance hrest, ?_, ?_⟩
  · intro row hrow hhash
    rcases SessionEnv.mem_handle_tokens request hrow with hold | hins | ⟨at_, old, hold, -, rfl⟩
    · exact h.stored row hold hhash
    · exact absurd hhash (hinsert row hins).2
    · exact h.stored old hold hhash
  · intro j hj row hrow horig
    rcases SessionEnv.mem_handle_tokens request hrow with hold | hins | ⟨at_, old, -, -, rfl⟩
    · rcases hmarked j hj with hj | ⟨-, id, at_, rfl, hok⟩
      · exact h.consumed j hj row hold horig
      · rw [SessionEnv.handle_markConsumed (eq_of_heq hok) hrow
          (horigin _ _ horig (hmark id at_ rfl))]
        simp
    · exact absurd horig (hinsert row hins).1
    · simp
  · intro j k hj hk
    rcases hmarked j hj with hold | ⟨rfl, id, at_, hreq, -⟩
    · rcases hmarked k hk with hold' | ⟨rfl, id, at_, hreq, -⟩
      · exact h.one j k hold hold'
      · exact absurd hold (hfirst id at_ j hreq)
    · rcases hmarked k hk with hold | ⟨rfl, -⟩
      · exact absurd hold (hfirst id at_ k hreq)
      · rfl

-- Among concurrent rotates of one token, whose marks each find it live, at
-- most one succeeds. The token is stored at most once, and the identifiers and
-- plaintexts drawn are fresh.
theorem rotate_single_use {world : SessionWorld} {schedule : List ι}
    (hstored : ∀ a ∈ world.tokens, ∀ b ∈ world.tokens,
      a.tokenHash = RefreshToken.hash prims presented →
      b.tokenHash = RefreshToken.hash prims presented → a = b)
    (huuid : ∀ n, ∀ row ∈ world.tokens, env.uuid n ≠ row.id)
    (hplaintext : ∀ n, RefreshToken.hash prims (env.plaintext n) ≠
      RefreshToken.hash prims presented)
    (hlive : (sessions prims ttlDays world fun _ : ι => .rotate presented).Respects
      env.handle (fun _ world _ request => MarksLive world request) schedule)
    (i j : ι)
    (hi : rotated (((sessions prims ttlDays world fun _ : ι => .rotate presented).run
      env.handle schedule).threads i) = true)
    (hj : rotated (((sessions prims ttlDays world fun _ : ι => .rotate presented).run
      env.handle schedule).threads j) = true) : i = j := by
  let origin : Uuid → Prop := fun id => ∃ row ∈ world.tokens,
    row.id = id ∧ row.tokenHash = RefreshToken.hash prims presented
  have horigin : ∀ a b, origin a → origin b → a = b := by
    rintro _ _ ⟨a, ha, rfl, hhash⟩ ⟨b, hb, rfl, hhash'⟩
    rw [hstored a ha b hb hhash hhash']
  have hrun : SingleUse prims presented origin
      ((sessions prims ttlDays world fun _ : ι => .rotate presented).run
        env.handle schedule) := by
    refine Config.run_induction (SingleUse prims presented origin) ?_ ?_ hlive
    · intro c i request next h hrest hguard
      exact h.advance horigin (fun n ⟨row, hrow, hid, _⟩ => huuid n row hrow hid.symm) hplaintext
        hrest hguard
    · exact SingleUse.start fun row hrow hhash => ⟨row, hrow, rfl, hhash⟩
  obtain ⟨tokens, hi⟩ := (rotated_iff _).mp hi
  obtain ⟨tokens', hj⟩ := (rotated_iff _).mp hj
  exact hrun.one i j ((hrun.threaded.here hi).success tokens rfl).1
    ((hrun.threaded.here hj).success tokens' rfl).1

end SingleUse

-- Both clients read the live token before either marks it.
def race : List Bool :=
  [false, true] ++ List.replicate 8 false ++ List.replicate 8 true

theorem rotate_twice :
    let raced := (sessions Sample.prims 30 Sample.world fun _ : Bool =>
      .rotate Sample.presented).run (Sample.env .postgres).handle race
    rotated (raced.threads false) = true ∧ rotated (raced.threads true) = true := by
  decide

-- One client after the other: the second finds the token consumed.
theorem rotate_single_use_in_turn :
    let turns := List.replicate 9 false ++ List.replicate 9 true
    let c := (sessions Sample.prims 30 Sample.world fun _ : Bool =>
      .rotate Sample.presented).run (Sample.env .postgres).handle turns
    rotated (c.threads false) = true ∧ ∀ j, rotated (c.threads j) = true → j = false := by
  refine ⟨by decide, fun j hj => rotate_single_use ?_ ?_ ?_ ?_ j false hj (by decide)⟩
  · intro a ha b hb _ _
    exact (List.mem_singleton.mp ha).trans (List.mem_singleton.mp hb).symm
  · intro n row hrow
    obtain rfl := List.mem_singleton.mp hrow
    exact Sample.uuid_ne_token n
  · exact fun n h => Sample.plaintext_ne_presented n (Sample.sha256_injective h)
  · decide

end AgentBoilerplate.Session
