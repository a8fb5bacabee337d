import AgentBoilerplate.Browser.Requests
import AgentBoilerplate.Effects.Runs
import AgentBoilerplate.Session.Lineage
import Mathlib.Data.Fintype.Basic

namespace AgentBoilerplate.Browser

open Effects Collections Session

-- What a request draws for the token it inserts.
inductive Draw where
  | uuid (id : Uuid)
  | digest (text : String)

def Draw.names (row : RefreshToken) : Draw → Prop
  | .uuid id => row.id = id
  | .digest text => row.tokenHash = text

abbrev Refreshes (ι : Type) := Config SessionPorts SessionWorld ι RefreshResponse

variable {ι : Type} {prims : Primitives} {env : SessionEnv} {ttlDays : Int} {familyId : Uuid}
  {c : Refreshes ι}

def drawn (prims : Primitives) : Event SessionPorts → Option Draw
  | ⟨.newUuid, id⟩ => some (.uuid id)
  | ⟨.newPlaintext, plaintext⟩ => some (.digest (RefreshToken.hash prims plaintext))
  | _ => none

def Drawn (prims : Primitives) (past : List (Event SessionPorts)) (draw : Draw) : Prop :=
  ∃ event ∈ past, drawn prims event = some draw

-- What the surroundings have not drawn yet.
def Undrawn (prims : Primitives) (env : SessionEnv) (world : SessionWorld) : Draw → Prop
  | .uuid id => ∃ n, world.uuids ≤ n ∧ id = env.uuid n
  | .digest text => ∃ n, world.plaintexts ≤ n ∧ text = RefreshToken.hash prims (env.plaintext n)

-- A hash is stored in the family, and only a request that looked it up has
-- consumed it.
def Held (familyId : Uuid) (c : Refreshes ι) (hash : String) : Prop :=
  ∃ row ∈ c.store.tokens, row.tokenHash = hash ∧ row.familyId = familyId ∧
    (row.consumedAt ≠ none → ∃ j, Rotates hash (c.threads j).past)

-- What holds of the draws of the requests and of the stored rows.
structure Supplied (prims : Primitives) (env : SessionEnv) (c : Refreshes ι) : Prop where
  fresh : ∀ draw, Undrawn prims env c.store draw →
    (∀ row ∈ c.store.tokens, ¬ draw.names row) ∧ ∀ i, ¬ Drawn prims (c.threads i).past draw
  apart : ∀ i j draw, Drawn prims (c.threads i).past draw → Drawn prims (c.threads j).past draw →
    i = j
  unused : ∀ i draw, Drawn prims (c.threads i).past draw →
    (∀ event ∈ (c.threads i).past, inserts event.call = false) →
    ∀ row ∈ c.store.tokens, ¬ draw.names row
  unique : ∀ a ∈ c.store.tokens, ∀ b ∈ c.store.tokens, a.tokenHash = b.tokenHash → a = b

-- What holds while no request has found a consumed token.
structure Undisturbed (prims : Primitives) (env : SessionEnv) (familyId : Uuid)
    (c : Refreshes ι) : Prop where
  threaded : c.Threaded fun _ => RefreshShape prims
  supplied : Supplied prims env c
  found : ∀ i hash stored, FoundBy hash stored (c.threads i).past →
    stored.consumedAt = none ∧ stored.familyId = familyId ∧
      ∃ row ∈ c.store.tokens, row.id = stored.id ∧ row.tokenHash = hash
  kept : ∀ i, ∀ event ∈ (c.threads i).past, removes event.call = false
  hit : ∀ i hash answer, (⟨.findByHash hash, answer⟩ : Event SessionPorts) ∈ (c.threads i).past →
    ∃ stored, answer = .ok (some stored)
  consumed : ∀ i hash, Rotates hash (c.threads i).past →
    ∀ row ∈ c.store.tokens, row.tokenHash = hash → row.consumedAt ≠ none
  waiting : ∀ i hash next, (c.threads i).rest = .call (.findByHash hash) next → Held familyId c hash
  issued : ∀ i token, (⟨.insert token, .ok ()⟩ : Event SessionPorts) ∈ (c.threads i).past →
    Held familyId c token.tokenHash
  stored : ∃ row ∈ c.store.tokens, row.familyId = familyId

section Draws

theorem undrawn_handle (henv : env.Faithful prims) {world : SessionWorld} {request : SessionCall}
    {draw : Draw} (h : Undrawn prims env (env.handle request world).2 draw) :
    Undrawn prims env world draw ∧
      drawn prims ⟨request, (env.handle request world).1⟩ ≠ some draw := by
  cases request with
  | utcNow => exact ⟨h, fun heq => (by cases heq)⟩
  | newUuid =>
      cases draw with
      | uuid id =>
          obtain ⟨n, hn, rfl⟩ := h
          have hn : world.uuids + 1 ≤ n := hn
          refine ⟨⟨n, by omega, rfl⟩, fun heq => ?_⟩
          have hid : env.uuid world.uuids = env.uuid n := Draw.uuid.inj (Option.some.inj heq)
          have := henv.uuid hid
          omega
      | digest text => exact ⟨h, fun heq => (by cases heq)⟩
  | newPlaintext =>
      cases draw with
      | uuid id => exact ⟨h, fun heq => (by cases heq)⟩
      | digest text =>
          obtain ⟨n, hn, rfl⟩ := h
          have hn : world.plaintexts + 1 ≤ n := hn
          refine ⟨⟨n, by omega, rfl⟩, fun heq => ?_⟩
          have := henv.hash_index rfl (Draw.digest.inj (Option.some.inj heq)).symm
          omega
  | _ =>
      simp only [SessionEnv.handle, attempt_ok henv.fault] at h
      exact ⟨(by cases draw <;> exact h), fun heq => (by cases heq)⟩

theorem drawn_handle {world : SessionWorld} {request : SessionCall} {draw : Draw}
    (h : drawn prims ⟨request, (env.handle request world).1⟩ = some draw) :
    Undrawn prims env world draw := by
  cases request with
  | newUuid =>
      obtain rfl := Option.some.inj h
      exact ⟨world.uuids, Nat.le_refl _, rfl⟩
  | newPlaintext =>
      obtain rfl := Option.some.inj h
      exact ⟨world.plaintexts, Nat.le_refl _, rfl⟩
  | _ => cases h

variable [DecidableEq ι] {i : ι} {request : SessionCall}
  {next : request.Answer → Program SessionPorts RefreshResponse}

theorem drawn_advance {j : ι} {draw : Draw}
    (h : Drawn prims ((c.advance env.handle i request next).threads j).past draw) :
    Drawn prims (c.threads j).past draw ∨
      j = i ∧ drawn prims ⟨request, (env.handle request c.store).1⟩ = some draw := by
  obtain ⟨event, hevent, hdraw⟩ := h
  rcases (Config.mem_advance_past _ _ _ _ _ _ _).mp hevent with hold | ⟨hj, rfl⟩
  · exact Or.inl ⟨event, hold, hdraw⟩
  · exact Or.inr ⟨hj, hdraw⟩

-- The identifier and the hash of an inserted token were drawn for it.
theorem names_drawn {past : List (Event SessionPorts)} {token : RefreshToken}
    {next : Except PortError Unit → Program SessionPorts RefreshResponse}
    (h : RefreshShape prims past (.call (.insert token) next)) {draw : Draw}
    (hnames : draw.names token) : Drawn prims past draw := by
  obtain ⟨-, -, -, hid, plaintext, hplaintext, hhash⟩ := h
  cases draw with
  | uuid id => exact ⟨_, hid, congrArg (fun id => some (Draw.uuid id)) hnames⟩
  | digest text =>
      exact ⟨_, hplaintext, congrArg (fun text => some (Draw.digest text)) (hhash.symm.trans hnames)⟩

-- A row of a later store carries the names of an old row, or those of a token
-- that was inserted.
theorem row_advance {row : RefreshToken}
    (h : row ∈ (c.advance env.handle i request next).store.tokens) :
    (∃ old ∈ c.store.tokens, (∀ draw : Draw, draw.names row ↔ draw.names old) ∧
      row.familyId = old.familyId ∧ row.tokenHash = old.tokenHash ∧ row.id = old.id) ∨
      request = .insert row := by
  rcases SessionEnv.mem_handle_tokens request h with hold | hins | ⟨at_, old, hold, -, rfl⟩
  · exact Or.inl ⟨row, hold, fun draw => Iff.rfl, rfl, rfl, rfl⟩
  · exact Or.inr hins
  · exact Or.inl ⟨old, hold, fun draw => (by cases draw <;> rfl), rfl, rfl, rfl⟩

theorem Supplied.advance (henv : env.Faithful prims) (h : Supplied prims env c)
    (hshape : RefreshShape prims (c.threads i).past (.call request next)) :
    Supplied prims env (c.advance env.handle i request next) := by
  -- a token is named by draws of its request only
  have hinserted : ∀ {row draw}, request = .insert row → draw.names row →
      Drawn prims (c.threads i).past draw := by
    intro row draw hrequest hnames
    subst hrequest
    exact names_drawn hshape hnames
  constructor
  · intro draw hundrawn
    obtain ⟨hbefore, hother⟩ := undrawn_handle henv hundrawn
    obtain ⟨hrows, hpasts⟩ := h.fresh draw hbefore
    refine ⟨fun row hrow hnames => ?_, fun j hdrawn => ?_⟩
    · rcases row_advance hrow with ⟨old, hold, hsame, -⟩ | hrequest
      · exact hrows old hold ((hsame draw).mp hnames)
      · exact hpasts i (hinserted hrequest hnames)
    · rcases drawn_advance hdrawn with hold | ⟨-, hnew⟩
      · exact hpasts j hold
      · exact hother hnew
  · intro j k draw hj hk
    rcases drawn_advance hj with hold | ⟨hji, hnew⟩
    · rcases drawn_advance hk with hold' | ⟨-, hnew'⟩
      · exact h.apart j k draw hold hold'
      · exact absurd hold ((h.fresh draw (drawn_handle hnew')).2 j)
    · rcases drawn_advance hk with hold' | ⟨hki, -⟩
      · exact absurd hold' ((h.fresh draw (drawn_handle hnew)).2 k)
      · rw [hji, hki]
  · intro j draw hdrawn hnone row hrow hnames
    have hbefore : ∀ event ∈ (c.threads j).past, inserts event.call = false :=
      fun event hevent => hnone event
        ((Config.mem_advance_past _ _ _ _ _ _ _).mpr (Or.inl hevent))
    rcases row_advance hrow with ⟨old, hold, hsame, -⟩ | hrequest
    · rcases drawn_advance hdrawn with hbefore' | ⟨-, hnew⟩
      · exact h.unused j draw hbefore' hbefore old hold ((hsame draw).mp hnames)
      · exact (h.fresh draw (drawn_handle hnew)).1 old hold ((hsame draw).mp hnames)
    · have hi := hinserted hrequest hnames
      have hji : j = i := by
        rcases drawn_advance hdrawn with hbefore' | ⟨hji, -⟩
        · exact h.apart j i draw hbefore' hi
        · exact hji
      have hinsert := hnone ⟨request, (env.handle request c.store).1⟩
        ((Config.mem_advance_past _ _ _ _ _ _ _).mpr (Or.inr ⟨hji, rfl⟩))
      subst hrequest
      cases hinsert
  · have hnew : ∀ {row old : RefreshToken}, request = .insert row → old ∈ c.store.tokens →
        old.tokenHash ≠ row.tokenHash := by
      intro row old hrequest hold hhash
      have hi : Drawn prims (c.threads i).past (.digest row.tokenHash) := hinserted hrequest rfl
      subst hrequest
      exact h.unused i _ hi hshape.1 old hold hhash
    intro a ha b hb hhash
    refine Table.eq_of_key _ ha hb ?_
    rcases row_advance ha with ⟨a', ha', -, -, hhash', hid⟩ | hrequest
    · rcases row_advance hb with ⟨b', hb', -, -, hhash'', hid'⟩ | hrequest
      · rw [hid, hid', h.unique a' ha' b' hb' (hhash'.symm.trans (hhash.trans hhash''))]
      · exact absurd (hhash'.symm.trans hhash) (hnew hrequest ha')
    · rcases row_advance hb with ⟨b', hb', -, -, hhash', hid⟩ | hrequest'
      · exact absurd (hhash'.symm.trans hhash.symm) (hnew hrequest hb')
      · rw [SessionCall.insert.inj (hrequest.symm.trans hrequest')]

end Draws

section Requests

variable [DecidableEq ι] {i : ι} {request : SessionCall}
  {next : request.Answer → Program SessionPorts RefreshResponse}

omit [DecidableEq ι] in
theorem Undisturbed.spares (h : Undisturbed prims env familyId c)
    (hrest : (c.threads i).rest = .call request next)
    (hunexpired : expiring (c.threads i).rest = false) : removes request = false := by
  have hshape := h.threaded.here hrest
  rw [hrest] at hunexpired
  cases request with
  | delete id => cases hunexpired
  | deleteExpired now => exact hshape.elim
  | deleteFamily id =>
      obtain ⟨hash, stored, hfound, hconsumed⟩ := hshape
      have hlive := (h.found i hash stored hfound).1
      unfold RefreshToken.isConsumed at hconsumed
      rw [hlive] at hconsumed
      cases hconsumed
  | _ => rfl

-- A stored row stays, and is consumed only by the call that names it.
theorem row_kept (i : ι) (next : request.Answer → Program SessionPorts RefreshResponse)
    (henv : env.Faithful prims) (hremoves : removes request = false)
    (hinsert : ∀ token, request = .insert token → ∀ row ∈ c.store.tokens,
      row.id ≠ token.id ∧ row.tokenHash ≠ token.tokenHash)
    {row : RefreshToken} (hrow : row ∈ c.store.tokens) :
    ∃ later ∈ (c.advance env.handle i request next).store.tokens, later.id = row.id ∧
      later.tokenHash = row.tokenHash ∧ later.familyId = row.familyId ∧
      (later.consumedAt = row.consumedAt ∨ ∃ at_, request = .markConsumed row.id at_) := by
  cases request with
  | delete id | deleteFamily id | deleteExpired now => cases hremoves
  | insert token =>
      refine ⟨row, ?_, rfl, rfl, rfl, Or.inl rfl⟩
      have hfresh := RefreshTokens.insert_fresh (hinsert token rfl) env.adapter
      simp only [Config.advance_store, SessionEnv.handle, attempt_ok henv.fault]
      rw [hfresh]
      exact (Table.mem_insert _ _ _).mpr (Or.inr ⟨hrow, (hinsert token rfl row hrow).1⟩)
  | markConsumed id at_ =>
      simp only [Config.advance_store, SessionEnv.handle, attempt_ok henv.fault]
      by_cases hid : row.id = id
      · refine ⟨{ row with consumedAt := some at_ },
          RefreshTokens.mem_markConsumed.mpr ⟨row, hrow, by rw [if_pos hid]⟩, rfl, rfl, rfl,
          Or.inr ⟨at_, by rw [hid]⟩⟩
      · exact ⟨row, RefreshTokens.mem_markConsumed.mpr ⟨row, hrow, by rw [if_neg hid]⟩, rfl, rfl,
          rfl, Or.inl rfl⟩
  | utcNow | newUuid | newPlaintext => exact ⟨row, hrow, rfl, rfl, rfl, Or.inl rfl⟩
  | _ =>
      simp only [Config.advance_store, SessionEnv.handle, attempt_ok henv.fault]
      exact ⟨row, hrow, rfl, rfl, rfl, Or.inl rfl⟩

omit [DecidableEq ι] in
theorem Supplied.inserts_fresh (h : Supplied prims env c)
    (hshape : RefreshShape prims (c.threads i).past (.call request next)) (token : RefreshToken)
    (hrequest : request = .insert token) (row : RefreshToken) (hrow : row ∈ c.store.tokens) :
    row.id ≠ token.id ∧ row.tokenHash ≠ token.tokenHash := by
  subst hrequest
  have hunused : ∀ draw : Draw, draw.names token → ¬ draw.names row := fun draw hnames =>
    h.unused i draw (names_drawn hshape hnames) hshape.1 row hrow
  exact ⟨hunused (.uuid token.id) rfl, hunused (.digest token.tokenHash) rfl⟩

theorem rotates_advance {j : ι} {hash : String} (h : Rotates hash (c.threads j).past) :
    Rotates hash ((c.advance env.handle i request next).threads j).past := by
  obtain ⟨⟨looked, hlooked, hhash⟩, consumed, hconsumed, hconsumes⟩ := h
  exact ⟨⟨looked, (Config.mem_advance_past _ _ _ _ _ _ _).mpr (Or.inl hlooked), hhash⟩,
    consumed, (Config.mem_advance_past _ _ _ _ _ _ _).mpr (Or.inl hconsumed), hconsumes⟩

theorem Undisturbed.held_advance (henv : env.Faithful prims) (h : Undisturbed prims env familyId c)
    (hrest : (c.threads i).rest = .call request next)
    (hunexpired : expiring (c.threads i).rest = false) {hash : String}
    (hheld : Held familyId c hash) :
    Held familyId (c.advance env.handle i request next) hash := by
  have hshape := h.threaded.here hrest
  obtain ⟨row, hrow, hhash, hfamily, hrotates⟩ := hheld
  obtain ⟨later, hlater, hid, hhash', hfamily', hconsumed⟩ :=
    row_kept i next henv (h.spares hrest hunexpired) (h.supplied.inserts_fresh hshape) hrow
  refine ⟨later, hlater, hhash'.trans hhash, hfamily'.trans hfamily, fun hne => ?_⟩
  rcases hconsumed with hsame | ⟨at_, rfl⟩
  · obtain ⟨j, hj⟩ := hrotates (hsame ▸ hne)
    exact ⟨j, rotates_advance hj⟩
  · -- the request that consumes the row has looked its hash up
    obtain ⟨found, stored, hfound, hstored, -⟩ := hshape
    obtain ⟨-, -, other, hother, hid', hfound'⟩ := h.found i found stored hfound
    obtain rfl := Table.eq_of_key _ hother hrow (hid'.trans hstored.symm)
    refine ⟨i, ⟨_, (Config.mem_advance_past _ _ _ _ _ _ _).mpr (Or.inl hfound), ?_⟩,
      ⟨.markConsumed other.id at_, _⟩, (Config.mem_advance_past _ _ _ _ _ _ _).mpr (Or.inr ⟨rfl, rfl⟩), rfl⟩
    rw [← hfound', hhash]

omit [DecidableEq ι] in
-- A hash that is held is looked up with success. What is found is live unless
-- another request has rotated it.
theorem Undisturbed.finds (henv : env.Faithful prims) (h : Undisturbed prims env familyId c)
    {hash : String} (hheld : Held familyId c hash) :
    ∃ row ∈ c.store.tokens, (env.handle (.findByHash hash) c.store).1 = .ok (some row) ∧
      row.tokenHash = hash ∧ row.familyId = familyId ∧
      ((∀ j, ¬ Rotates hash (c.threads j).past) → row.consumedAt = none) := by
  obtain ⟨row, hrow, hhash, hfamily, hrotates⟩ := hheld
  refine ⟨row, hrow, ?_, hhash, hfamily, fun hnone => ?_⟩
  · simp only [SessionEnv.handle, attempt_ok henv.fault]
    cases hfound : c.store.tokens.findByHash hash with
    | none => exact absurd hhash ((RefreshTokens.findByHash_eq_none _ _).mp hfound row hrow)
    | some stored =>
        obtain ⟨hstored, hhash'⟩ := RefreshTokens.findByHash_eq_some hfound
        rw [h.supplied.unique stored hstored row hrow (hhash'.trans hhash.symm)]
  · by_contra hne
    obtain ⟨j, hj⟩ := hrotates hne
    exact hnone j hj

omit [DecidableEq ι] in
-- A hash that was looked up is stored.
theorem Undisturbed.looked (h : Undisturbed prims env familyId c) {j : ι} {hash : String}
    (hlooked : ∃ event ∈ (c.threads j).past, event.call = .findByHash hash) :
    ∃ stored, FoundBy hash stored (c.threads j).past ∧ stored.familyId = familyId ∧
      ∃ row ∈ c.store.tokens, row.id = stored.id ∧ row.tokenHash = hash := by
  obtain ⟨⟨call, answer⟩, hevent, hcall⟩ := hlooked
  dsimp only at hcall
  subst hcall
  obtain ⟨stored, rfl⟩ := h.hit j hash answer hevent
  obtain ⟨-, hfamily, row, hrow, hid, hhash⟩ := h.found j hash stored hevent
  exact ⟨stored, hevent, hfamily, row, hrow, hid, hhash⟩

theorem Undisturbed.consumed_advance (henv : env.Faithful prims) (h : Undisturbed prims env familyId c)
    (hrest : (c.threads i).rest = .call request next) {j : ι} {hash : String}
    (hrotates : Rotates hash ((c.advance env.handle i request next).threads j).past)
    {row : RefreshToken} (hrow : row ∈ (c.advance env.handle i request next).store.tokens)
    (hhash : row.tokenHash = hash) : row.consumedAt ≠ none := by
  have hshape := h.threaded.here hrest
  -- the lookup comes before the call that consumes
  have hlooked : ∃ event ∈ (c.threads j).past, event.call = .findByHash hash := by
    obtain ⟨⟨looked, hlooked, hcall⟩, mark, hmark, hconsumes⟩ := hrotates
    rcases (Config.mem_advance_past _ _ _ _ _ _ _).mp hlooked with hold | ⟨hj, rfl⟩
    · exact ⟨looked, hold, hcall⟩
    · dsimp only at hcall
      subst hcall
      rcases (Config.mem_advance_past _ _ _ _ _ _ _).mp hmark with hold | ⟨-, rfl⟩
      · rw [hj, hshape.1] at hold
        cases hold
      · cases hconsumes
  obtain ⟨stored, hfound, -, old, hold, hid, holdhash⟩ := h.looked hlooked
  rcases SessionEnv.mem_handle_tokens request hrow with hbefore | hinsert | ⟨at_, _, -, -, rfl⟩
  · by_cases hrotated : Rotates hash (c.threads j).past
    · exact h.consumed j hash hrotated row hbefore hhash
    · -- this very call consumes it
      obtain ⟨mark, hmark, hconsumes⟩ := hrotates.2
      rcases (Config.mem_advance_past _ _ _ _ _ _ _).mp hmark with hmarked | ⟨hj, rfl⟩
      · exact absurd ⟨hlooked, mark, hmarked, hconsumes⟩ hrotated
      · cases request with
        | markConsumed id at_ =>
            obtain ⟨hash', stored', hfound', rfl, hsame⟩ := hshape
            rw [hj] at hfound
            have hequal : hash = hash' := hsame _ hfound hash rfl
            obtain ⟨-, -, row', hrow', hid', hhash'⟩ := h.found i hash' stored' hfound'
            have hone : row = row' :=
              h.supplied.unique row hbefore row' hrow' (hhash.trans (hequal.trans hhash'.symm))
            have hok : (env.handle (.markConsumed stored'.id at_) c.store).1 = .ok () := by
              simp only [SessionEnv.handle, attempt_ok henv.fault]
            rw [SessionEnv.handle_markConsumed hok hrow (by rw [hone, hid'])]
            exact Option.some_ne_none _
        | _ => cases hconsumes
  · exact absurd (holdhash.trans hhash.symm)
      (h.supplied.inserts_fresh hshape row hinsert old hold).2
  · exact fun heq => by cases heq

theorem Undisturbed.advance (henv : env.Faithful prims) (h : Undisturbed prims env familyId c)
    (hrest : (c.threads i).rest = .call request next)
    (hunexpired : expiring (c.threads i).rest = false)
    (hturn : ∀ hash, request = .findByHash hash → ∀ j, ¬ Rotates hash (c.threads j).past) :
    Undisturbed prims env familyId (c.advance env.handle i request next) := by
  have hshape := h.threaded.here hrest
  have hspares := h.spares hrest hunexpired
  have hrow : ∀ row ∈ c.store.tokens, _ := fun row =>
    row_kept i next henv hspares (h.supplied.inserts_fresh hshape)
  have hheld : ∀ hash, Held familyId c hash → _ := fun hash =>
    h.held_advance henv hrest hunexpired
  have hthreaded : (c.advance env.handle i request next).Threaded fun _ => RefreshShape prims :=
    h.threaded.advance hrest
  -- the events of a later past
  have hpast : ∀ j event, event ∈ ((c.advance env.handle i request next).threads j).past →
      event ∈ (c.threads j).past ∨
        j = i ∧ event = ⟨request, (env.handle request c.store).1⟩ := fun j event =>
    (Config.mem_advance_past _ _ _ _ _ _ _).mp
  -- the answer to a lookup
  have hnew : ∀ {hash answer}, (⟨.findByHash hash, answer⟩ : Event SessionPorts) =
      ⟨request, (env.handle request c.store).1⟩ → ∃ row ∈ c.store.tokens,
        answer = .ok (some row) ∧ row.tokenHash = hash ∧ row.familyId = familyId ∧
          row.consumedAt = none := by
    intro hash answer heq
    obtain ⟨hcall, hanswer⟩ := Event.mk.inj heq
    subst hcall
    obtain ⟨row, hmem, hfound, hhash, hfamily, hlive⟩ := h.finds henv (h.waiting i hash next hrest)
    exact ⟨row, hmem, (eq_of_heq hanswer).trans hfound, hhash, hfamily, hlive (hturn hash rfl)⟩
  refine ⟨hthreaded, h.supplied.advance henv hshape, ?_, ?_, ?_, ?_, ?_, ?_, ?_⟩
  · intro j hash stored hfound
    rcases hpast j _ hfound with hold | ⟨-, heq⟩
    · obtain ⟨hlive, hfamily, row, hmem, hid, hhash⟩ := h.found j hash stored hold
      obtain ⟨later, hlater, hid', hhash', -⟩ := hrow row hmem
      exact ⟨hlive, hfamily, later, hlater, hid'.trans hid, hhash'.trans hhash⟩
    · obtain ⟨row, hmem, hanswer, hhash, hfamily, hlive⟩ := hnew heq
      obtain rfl := Option.some.inj (Except.ok.inj hanswer)
      obtain ⟨later, hlater, hid', hhash', -⟩ := hrow stored hmem
      exact ⟨hlive, hfamily, later, hlater, hid', hhash'.trans hhash⟩
  · intro j event hevent
    rcases hpast j _ hevent with hold | ⟨-, rfl⟩
    · exact h.kept j event hold
    · exact hspares
  · intro j hash answer hevent
    rcases hpast j _ hevent with hold | ⟨-, heq⟩
    · exact h.hit j hash answer hold
    · obtain ⟨row, -, hanswer, -⟩ := hnew heq
      exact ⟨row, hanswer⟩
  · exact fun j hash hrotates row hmem hhash => h.consumed_advance henv hrest hrotates hmem hhash
  · intro j hash other hother
    by_cases hj : j = i
    · subst hj
      have hempty := hthreaded.here hother
      rw [Config.advance_self] at hempty
      exact absurd hempty.1 (by simp)
    · rw [Config.advance_of_ne _ _ _ _ hj] at hother
      exact hheld hash (h.waiting j hash other hother)
  · intro j token hevent
    rcases hpast j _ hevent with hold | ⟨-, heq⟩
    · exact hheld _ (h.issued j token hold)
    · obtain ⟨hcall, -⟩ := Event.mk.inj heq
      subst hcall
      have hfresh := RefreshTokens.insert_fresh (h.supplied.inserts_fresh hshape token rfl) env.adapter
      obtain ⟨-, hlive, ⟨hash, stored, hfound, hfamily⟩, -⟩ := hshape
      refine ⟨token, ?_, rfl, hfamily.trans (h.found i hash stored hfound).2.1, absurd hlive⟩
      simp only [Config.advance_store, SessionEnv.handle, attempt_ok henv.fault]
      rw [hfresh]
      exact (Table.mem_insert _ _ _).mpr (Or.inl rfl)
  · obtain ⟨row, hmem, hfamily⟩ := h.stored
    obtain ⟨later, hlater, -, -, hfamily', -⟩ := hrow row hmem
    exact ⟨later, hlater, hfamily'.trans hfamily⟩

-- A request that looks a rotated hash up finds the reuse.
theorem Undisturbed.disturbed (henv : env.Faithful prims) (h : Undisturbed prims env familyId c)
    (hrest : (c.threads i).rest = .call request next) {hash : String}
    (hrequest : request = .findByHash hash) {j : ι} (hrotates : Rotates hash (c.threads j).past) :
    revoking ((c.advance env.handle i request next).threads i).rest = true := by
  subst hrequest
  obtain ⟨-, hreuse⟩ := h.threaded.here hrest
  obtain ⟨row, hrow, hfound, hhash, -⟩ := h.finds henv (h.waiting i hash next hrest)
  have hconsumed := h.consumed j hash hrotates row hrow hhash
  rw [Config.advance_self]
  dsimp only
  rw [hfound]
  exact hreuse row (Option.isSome_iff_ne_none.mpr hconsumed)

end Requests

-- A call whose refresh request has been sent, or will never be.
def AuthCall.sent : AuthCall → Bool
  | .idle | .calling _ | .unauthorized => false
  | _ => true

def revokes : SessionCall → Bool
  | .deleteFamily _ => true
  | _ => false

-- A rotate has taken a token for a stolen one.
def ReuseDetected (thread : Thread SessionPorts RefreshResponse) : Prop :=
  revoking thread.rest = true ∨ ∃ event ∈ thread.past, revokes event.call = true

def Tab.Survives (familyId : Uuid) (tab : Tab ι) : Prop :=
  (∀ i, ¬ ReuseDetected (tab.server.threads i)) ∧
    ∃ row ∈ tab.server.store.tokens, row.familyId = familyId

-- No rotate finds its token expired.
def Tab.Unexpired (tab : Tab ι) : Prop := ∀ i, expiring (tab.server.threads i).rest = false

def looksUp : SessionCall → Option String
  | .findByHash hash => some hash
  | _ => none

-- A refresh request looks its token up before any other refresh request that
-- carries the same cookie has consumed it.
def Tab.InTurn (tab : Tab ι) : TabStep ι → Prop
  | .handle i => (tab.server.threads i).rest.Asks fun request =>
      ∀ hash ∈ looksUp request, ∀ j, ¬ Rotates hash (tab.server.threads j).past
  | _ => True

instance [Fintype ι] (tab : Tab ι) : Decidable tab.Unexpired :=
  inferInstanceAs (Decidable (∀ _, _))

instance [Fintype ι] (tab : Tab ι) : (action : TabStep ι) → Decidable (tab.InTurn action)
  | .handle _ => Program.decidableAsks _
  | .begin_ _ | .answer _ _ | .send _ | .deliver _ | .resume _ => isTrue trivial

structure Tab.Sound (prims : Primitives) (env : SessionEnv) (familyId : Uuid) (tab : Tab ι) :
    Prop where
  server : Undisturbed prims env familyId tab.server
  unsent : ∀ i, (tab.calls i).sent = false →
    (tab.server.threads i).past = [] ∧ ∃ response, (tab.server.threads i).rest = .done response
  cookie : ∀ value, tab.cookie = some value →
    Held familyId tab.server (RefreshToken.hash prims value)

section Tabs

variable {tab : Tab ι} [DecidableEq ι] {i : ι}

omit [DecidableEq ι] in
theorem Tab.Sound.survives (h : tab.Sound prims env familyId) : tab.Survives familyId := by
  refine ⟨fun i hreuse => ?_, h.server.stored⟩
  rcases hreuse with hrevoking | ⟨event, hevent, hrevokes⟩
  · cases hrest : (tab.server.threads i).rest with
    | done response =>
        rw [hrest] at hrevoking
        cases hrevoking
    | call request next =>
        have hspares : removes request = false := by
          refine h.server.spares hrest ?_
          rw [hrest] at hrevoking ⊢
          cases request with
          | deleteFamily id => rfl
          | _ => cases hrevoking
        rw [hrest] at hrevoking
        cases request with
        | deleteFamily id => cases hspares
        | _ => cases hrevoking
  · have hkept := h.server.kept i event hevent
    obtain ⟨call, answer⟩ := event
    cases call with
    | deleteFamily id => cases hkept
    | _ => cases hrevokes

-- Moving a call leaves the server alone.
theorem Tab.Sound.goTo (h : tab.Sound prims env familyId) {call : AuthCall}
    (hsent : call.sent = false → (tab.server.threads i).past = [] ∧
      ∃ response, (tab.server.threads i).rest = .done response) :
    (tab.goTo i call).Sound prims env familyId := by
  refine ⟨h.server, fun j hj => ?_, h.cookie⟩
  unfold Tab.goTo at hj
  dsimp only at hj
  by_cases hji : j = i
  · subst hji
    rw [Function.update_self] at hj
    exact hsent hj
  · rw [Function.update_of_ne hji] at hj
    exact h.unsent j hj

theorem Tab.Sound.request (h : tab.Sound prims env familyId) (hcall : tab.calls i = .unauthorized) :
    (tab.request prims ttlDays i).Sound prims env familyId := by
  have hempty := (h.unsent i (by rw [hcall]; rfl)).1
  have hstore : (tab.request prims ttlDays i).server.store = tab.server.store := rfl
  have hpast : ∀ j, ((tab.request prims ttlDays i).server.threads j).past =
      (tab.server.threads j).past := by
    intro j
    unfold Tab.request Tab.goTo
    dsimp only
    by_cases hji : j = i
    · rw [hji, Function.update_self, hempty]
    · rw [Function.update_of_ne hji]
  have hheld : ∀ hash, Held familyId tab.server hash →
      Held familyId (tab.request prims ttlDays i).server hash := by
    intro hash ⟨row, hrow, hhash, hfamily, hrotates⟩
    refine ⟨row, hrow, hhash, hfamily, fun hne => ?_⟩
    obtain ⟨j, hj⟩ := hrotates hne
    exact ⟨j, by rw [hpast]; exact hj⟩
  have hrest : ∀ j, j = i ∧
      ((tab.request prims ttlDays i).server.threads j).rest = refresh prims ttlDays tab.cookie ∨
      j ≠ i ∧ (tab.request prims ttlDays i).server.threads j = tab.server.threads j := by
    intro j
    unfold Tab.request Tab.goTo
    dsimp only
    by_cases hji : j = i
    · rw [hji, Function.update_self]
      exact Or.inl ⟨rfl, rfl⟩
    · rw [Function.update_of_ne hji]
      exact Or.inr ⟨hji, rfl⟩
  obtain ⟨hfresh, hapart, hunused, hunique⟩ := h.server.supplied
  refine ⟨⟨fun j => ?_, ⟨?_, ?_, ?_, hunique⟩, ?_, ?_, ?_, ?_, ?_, ?_, h.server.stored⟩, ?_, ?_⟩
  · rcases hrest j with ⟨rfl, hj⟩ | ⟨-, hj⟩
    · rw [hpast, hj, hempty]
      exact refresh_shape prims ttlDays tab.cookie
    · rw [hj]
      exact h.server.threaded j
  · simpa only [hpast, hstore] using hfresh
  · simpa only [hpast, hstore] using hapart
  · simpa only [hpast, hstore] using hunused
  · simpa only [hpast, hstore] using h.server.found
  · simpa only [hpast, hstore] using h.server.kept
  · simpa only [hpast, hstore] using h.server.hit
  · simpa only [hpast, hstore] using h.server.consumed
  · intro j hash next hnext
    rcases hrest j with ⟨rfl, hj⟩ | ⟨-, hj⟩
    · obtain ⟨value, hcookie, rfl⟩ := refresh_lookup prims ttlDays (hj.symm.trans hnext)
      exact hheld _ (h.cookie value hcookie)
    · rw [hj] at hnext
      exact hheld _ (h.server.waiting j hash next hnext)
  · intro j token hevent
    rw [hpast] at hevent
    exact hheld _ (h.server.issued j token hevent)
  · intro j hj
    rcases hrest j with ⟨rfl, -⟩ | ⟨hji, hsame⟩
    · unfold Tab.request Tab.goTo at hj
      dsimp only at hj
      rw [Function.update_self] at hj
      cases hj
    · rw [hsame]
      unfold Tab.request Tab.goTo at hj
      dsimp only at hj
      rw [Function.update_of_ne hji] at hj
      exact h.unsent j hj
  · exact fun value hvalue => hheld _ (h.cookie value hvalue)

theorem Tab.Sound.receive (h : tab.Sound prims env familyId) {response : RefreshResponse}
    (hrest : (tab.server.threads i).rest = .done response) :
    (tab.receive i response).Sound prims env familyId := by
  have hshape := h.server.threaded.here hrest
  have hcookie : ∀ value, response.setCookie.getD tab.cookie = some value →
      Held familyId tab.server (RefreshToken.hash prims value) := by
    intro value hvalue
    cases hset : response.setCookie with
    | none =>
        rw [hset] at hvalue
        exact h.cookie value hvalue
    | some cookie =>
        rw [hset] at hvalue
        obtain ⟨token, hevent, hhash⟩ := hshape value (by rw [hset]; exact congrArg some hvalue)
        exact hhash ▸ h.server.issued i token hevent
  unfold Tab.receive
  have hsound : ∀ token, Tab.Sound prims env familyId
      { tab with cookie := response.setCookie.getD tab.cookie, token := token } :=
    fun token => ⟨h.server, h.unsent, hcookie⟩
  by_cases hok : response.status = 200
  · rw [if_pos hok]
    exact (hsound _).goTo fun hsent => (by cases hsent)
  · rw [if_neg hok]
    exact (hsound _).goTo fun hsent => (by cases hsent)

theorem Tab.Sound.handle (henv : env.Faithful prims) (h : tab.Sound prims env familyId)
    (hunexpired : tab.Unexpired) (hturn : tab.InTurn (.handle i)) :
    Tab.Sound prims env familyId { tab with server := tab.server.step env.handle i } := by
  cases hrest : (tab.server.threads i).rest with
  | done response =>
      rw [Config.step_done _ _ _ _ hrest]
      exact h
  | call request next =>
      have hlookup : ∀ hash, request = .findByHash hash →
          ∀ j, ¬ Rotates hash (tab.server.threads j).past := by
        intro hash heq
        subst heq
        unfold Tab.InTurn at hturn
        dsimp only at hturn
        rw [hrest] at hturn
        exact hturn hash rfl
      rw [Config.step_call _ _ _ _ _ hrest]
      refine ⟨h.server.advance henv hrest (hunexpired i) hlookup, fun j hj => ?_, fun value hvalue =>
        h.server.held_advance henv hrest (hunexpired i) (h.cookie value hvalue)⟩
      have hidle := h.unsent j hj
      by_cases hji : j = i
      · obtain ⟨-, response, hdone⟩ := hidle
        rw [hji, hrest] at hdone
        cases hdone
      · rwa [Config.advance_of_ne _ _ _ _ hji]

theorem Tab.Sound.step (henv : env.Faithful prims) (h : tab.Sound prims env familyId)
    (hunexpired : tab.Unexpired) {action : TabStep ι} (hturn : tab.InTurn action) :
    (tab.step env prims ttlDays action).Sound prims env familyId := by
  have hsettled : ∀ i answer, (tab.goTo i (.settled answer)).Sound prims env familyId :=
    fun i answer => h.goTo fun hsent => by cases hsent
  cases action with
  | begin_ i =>
      unfold Tab.step
      dsimp only
      cases hcall : tab.calls i with
      | idle =>
          have hidle := h.unsent i (by rw [hcall]; rfl)
          cases tab.token with
          | none => exact hsettled i _
          | some token => exact h.goTo fun _ => hidle
      | _ => exact h
  | answer i answer =>
      unfold Tab.step
      dsimp only
      cases hcall : tab.calls i with
      | calling token =>
          have hidle := h.unsent i (by rw [hcall]; rfl)
          dsimp only
          by_cases hexpired : answer = .apiError 401
          · rw [if_pos hexpired]
            exact h.goTo fun _ => hidle
          · rw [if_neg hexpired]
            exact hsettled i answer
      | retrying token => exact hsettled i answer
      | _ => exact h
  | send i =>
      unfold Tab.step
      dsimp only
      cases hcall : tab.calls i with
      | unauthorized => exact h.request hcall
      | _ => exact h
  | handle i => exact h.handle henv hunexpired hturn
  | deliver i =>
      unfold Tab.step
      dsimp only
      cases hcall : tab.calls i with
      | refreshing =>
          cases hrest : (tab.server.threads i).rest with
          | done response => exact h.receive hrest
          | call request next => exact h
      | _ => exact h
  | resume i =>
      unfold Tab.step
      dsimp only
      cases hcall : tab.calls i with
      | restored => exact h.goTo fun hsent => by cases hsent
      | refused =>
          have hcleared : Tab.Sound prims env familyId { tab with token := none } :=
            ⟨h.server, h.unsent, h.cookie⟩
          exact hcleared.goTo fun hsent => by cases hsent
      | _ => exact h

-- A refresh request out of turn finds the reuse.
theorem Tab.Sound.breaks (henv : env.Faithful prims) (h : tab.Sound prims env familyId)
    {action : TabStep ι} (hturn : ¬ tab.InTurn action) :
    ¬ (tab.step env prims ttlDays action).Survives familyId := by
  cases action with
  | handle i =>
      intro hsurvives
      refine hturn ?_
      unfold Tab.InTurn
      dsimp only
      cases hrest : (tab.server.threads i).rest with
      | done response => trivial
      | call request next =>
          intro hash hlooks j hrotates
          have hrequest : request = .findByHash hash := by
            cases request with
            | findByHash other => rw [Option.some.inj hlooks]
            | _ => cases hlooks
          refine hsurvives.1 i (Or.inl ?_)
          unfold Tab.step
          dsimp only
          rw [Config.step_call _ _ _ _ _ hrest]
          exact h.server.disturbed henv hrest hrequest hrotates
  | _ => exact absurd trivial hturn

end Tabs

section Sessions

theorem Tab.sound_opened (henv : env.Faithful prims) {world : SessionWorld}
    (h : world.Families prims env)
    {access presented : String} {token : RefreshToken} (htoken : token ∈ world.tokens)
    (hhash : token.tokenHash = RefreshToken.hash prims presented)
    (hlive : token.consumedAt = none) :
    (Tab.opened access presented world : Tab ι).Sound prims env token.familyId := by
  have hundrawn : ∀ draw, Undrawn prims env world draw → ∀ row ∈ world.tokens,
      ¬ draw.names row := by
    intro draw hdraw row hrow hnames
    cases draw with
    | uuid id =>
        obtain ⟨n, hn, rfl⟩ := hdraw
        exact h.id_ne henv hn hrow hnames
    | digest text =>
        obtain ⟨n, hn, rfl⟩ := hdraw
        exact h.hash_ne henv hn hrow hnames
  refine ⟨⟨fun i => ?_, ⟨fun draw hdraw => ⟨hundrawn draw hdraw, fun i hdrawn => ?_⟩, ?_, ?_,
    h.unique⟩, ?_, ?_, ?_, ?_, ?_, ?_, ⟨token, htoken, rfl⟩⟩, fun i _ => ⟨rfl, _, rfl⟩, ?_⟩
  · exact fun value heq => by cases heq
  · obtain ⟨_, hevent, -⟩ := hdrawn
    cases hevent
  · intro i j draw hdrawn
    obtain ⟨_, hevent, -⟩ := hdrawn
    cases hevent
  · intro i draw hdrawn
    obtain ⟨_, hevent, -⟩ := hdrawn
    cases hevent
  · exact fun i hash stored hevent => by cases hevent
  · exact fun i event hevent => by cases hevent
  · exact fun i hash answer hevent => by cases hevent
  · intro i hash hrotates
    obtain ⟨⟨_, hevent, -⟩, -⟩ := hrotates
    cases hevent
  · exact fun i hash next hnext => by cases hnext
  · exact fun i token hevent => by cases hevent
  · intro value hvalue
    obtain rfl := Option.some.inj hvalue
    exact ⟨token, htoken, hhash, rfl, absurd hlive⟩

variable [DecidableEq ι]

-- A tab whose session was opened before, on a database that serves requests:
-- whatever calls it makes, its session survives every step of the run exactly
-- when its refresh requests look their tokens up in turn.
theorem session_survives (henv : env.Faithful prims) (ttlDays : Int) {start : SessionWorld}
    (hstart : start.tokens = Table.empty) (before : List SessionOp) {access presented : String}
    {token : RefreshToken} (htoken : token ∈ (env.served prims ttlDays start before).tokens)
    (hhash : token.tokenHash = RefreshToken.hash prims presented)
    (hlive : token.consumedAt = none) (actions : List (TabStep ι)) :
    let tab : Tab ι := Tab.opened access presented (env.served prims ttlDays start before)
    let step := Tab.step env prims ttlDays
    Always step Tab.Unexpired tab actions →
      (Always step (Tab.Survives token.familyId) tab actions ↔
        Permits step Tab.InTurn tab actions) := by
  intro tab step hunexpired
  have hempty : start.Families prims env := by
    unfold SessionWorld.Families
    rw [hstart]
    exact Families.empty
  have hsound : tab.Sound prims env token.familyId :=
    Tab.sound_opened henv (served_run ttlDays henv hempty before).1 htoken hhash hlive
  exact always_iff_permits (fun tab h => h.survives)
    (fun tab action h hunexpired hturn => h.step henv hunexpired hturn)
    (fun tab action h _ hturn => h.breaks henv hturn) hsound hunexpired

end Sessions

-- A login, and two calls whose access token expires.
namespace Sample

def requests : List SessionOp := [.login "Ada@example.org " "correct horse"]

def loggedIn : SessionWorld :=
  (Session.Sample.env .postgres).served Session.Sample.prims 30
    { Session.Sample.world with tokens := Table.empty } requests

def tab : Tab Bool := Tab.opened "token" (Session.Sample.plaintext 0) loggedIn

def step : Tab Bool → TabStep Bool → Tab Bool :=
  Tab.step (Session.Sample.env .postgres) Session.Sample.prims 30

def expire (i : Bool) : List (TabStep Bool) :=
  [.begin_ i, .answer i (.apiError 401), .send i]

def refreshed (i : Bool) : List (TabStep Bool) := List.replicate 9 (.handle i) ++ [.deliver i]

-- Both refreshes are sent before either is answered.
def together : List (TabStep Bool) :=
  expire false ++ expire true ++ refreshed false ++ refreshed true

-- The second call begins when the first has its token.
def inTurn : List (TabStep Bool) :=
  expire false ++ refreshed false ++ expire true ++ refreshed true

end Sample

-- The second refresh presents the consumed cookie, and the family is revoked.
theorem session_revoked :
    let last := Sample.together.foldl Sample.step Sample.tab
    last.calls false = .restored ∧ last.calls true = .refused ∧
      last.server.store.events.map SecurityEvent.kind = ["refresh_reuse_detected"] ∧
      last.server.store.tokens.rows = [] ∧ last.cookie = none ∧ last.token = none := by
  decide +kernel

theorem session_survives_inTurn :
    ∃ token ∈ Sample.loggedIn.tokens,
      Always Sample.step (Tab.Survives token.familyId) Sample.tab Sample.inTurn := by
  have hstored : ∃ token ∈ Sample.loggedIn.tokens.rows,
      token.tokenHash = RefreshToken.hash Session.Sample.prims (Session.Sample.plaintext 0) ∧
        token.consumedAt = none := by
    decide +kernel
  obtain ⟨token, htoken, hhash, hlive⟩ := hstored
  have hunexpired : Always Sample.step Tab.Unexpired Sample.tab Sample.inTurn := by
    decide +kernel
  have hturns : Permits Sample.step Tab.InTurn Sample.tab Sample.inTurn := by
    decide +kernel
  exact ⟨token, htoken, (session_survives (Session.Sample.faithful .postgres) 30 rfl Sample.requests
    htoken hhash hlive Sample.inTurn hunexpired).mpr hturns⟩

end AgentBoilerplate.Browser
