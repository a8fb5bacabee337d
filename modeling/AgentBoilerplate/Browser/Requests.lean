import AgentBoilerplate.Browser.Tab
import AgentBoilerplate.Session.Families

namespace AgentBoilerplate.Browser

open Effects Collections Session

-- The calls that take tokens away, and the calls that consume and insert one.
def removes : SessionCall → Bool
  | .delete _ | .deleteFamily _ | .deleteExpired _ => true
  | _ => false

def consumes : SessionCall → Bool
  | .markConsumed _ _ => true
  | _ => false

def inserts : SessionCall → Bool
  | .insert _ => true
  | _ => false

-- The request is about to revoke a family, or to drop an expired token.
def revoking : Program SessionPorts RefreshResponse → Bool
  | .call (.deleteFamily _) _ => true
  | _ => false

def expiring : Program SessionPorts RefreshResponse → Bool
  | .call (.delete _) _ => true
  | _ => false

def FoundBy (hash : String) (stored : RefreshToken) (past : List (Event SessionPorts)) : Prop :=
  (⟨.findByHash hash, .ok (some stored)⟩ : Event SessionPorts) ∈ past

-- The request has looked a hash up, and has consumed what it found.
def Rotates (hash : String) (past : List (Event SessionPorts)) : Prop :=
  (∃ event ∈ past, event.call = .findByHash hash) ∧ ∃ event ∈ past, consumes event.call = true

instance (hash : String) (past : List (Event SessionPorts)) : Decidable (Rotates hash past) :=
  inferInstanceAs (Decidable (_ ∧ _))

variable (prims : Primitives) (ttlDays : Int)

-- What a refresh request does at each of its calls, and what it responds.
def RefreshShape (past : List (Event SessionPorts)) : Program SessionPorts RefreshResponse → Prop
  | .call (.findByHash _) next => past = [] ∧
      ∀ stored : RefreshToken, stored.isConsumed = true → revoking (next (.ok (some stored))) = true
  | .call (.markConsumed id _) _ => ∃ hash stored, FoundBy hash stored past ∧ id = stored.id ∧
      ∀ event ∈ past, ∀ other, event.call = .findByHash other → other = hash
  | .call (.insert token) _ => (∀ event ∈ past, inserts event.call = false) ∧
      token.consumedAt = none ∧
      (∃ hash stored, FoundBy hash stored past ∧ token.familyId = stored.familyId) ∧
      (⟨.newUuid, token.id⟩ : Event SessionPorts) ∈ past ∧
      ∃ plaintext, (⟨.newPlaintext, plaintext⟩ : Event SessionPorts) ∈ past ∧
        token.tokenHash = RefreshToken.hash prims plaintext
  | .call (.deleteFamily _) _ =>
      ∃ hash stored, FoundBy hash stored past ∧ stored.isConsumed = true
  | .call (.deleteExpired _) _ => False
  | .call _ _ => True
  | .done response => ∀ value, response.setCookie = some (some value) →
      ∃ token, (⟨.insert token, .ok ()⟩ : Event SessionPorts) ∈ past ∧
        token.tokenHash = RefreshToken.hash prims value

theorem refresh_shape (cookie : Option String) :
    (refresh prims ttlDays cookie).Along (RefreshShape prims) [] := by
  -- a response that sets no cookie
  have hquiet : ∀ past {response : RefreshResponse}, (∀ value, response.setCookie ≠ some (some value)) →
      RefreshShape prims past (.done response) :=
    fun past response hnone value heq => absurd heq (hnone value)
  have hfailed : ∀ past, RefreshShape prims past (.done ⟨500, none, none⟩) :=
    fun past => hquiet past (by simp)
  have hcleared : ∀ past, RefreshShape prims past (.done ⟨401, some none, none⟩) :=
    fun past => hquiet past (by simp)
  unfold refresh
  cases cookie.filter fun value => value ≠ "" with
  | none => exact hquiet [] (by simp)
  | some presented =>
  simp only [rotate, Fallible.run_orFail_bind, findByHash, Program.call_bind, Program.done_bind,
    Program.along_call]
  refine ⟨⟨rfl, fun stored hconsumed => ?_⟩, fun answer => ?_⟩
  · simp only [hconsumed, if_true, Fallible.run_orFail_bind, deleteFamily, Program.call_bind]
    rfl
  cases answer with
  | error e => exact hfailed _
  | ok found =>
  cases found with
  | none => exact hcleared _
  | some stored =>
  have hfound : ∀ later, FoundBy (RefreshToken.hash prims presented) stored
      (⟨.findByHash (RefreshToken.hash prims presented), .ok (some stored)⟩ :: later) :=
    fun later => List.mem_cons_self
  dsimp only
  by_cases hconsumed : stored.isConsumed = true
  · -- a reuse takes the family away and is recorded
    rw [if_pos hconsumed]
    simp only [Fallible.run_orFail_bind, Fallible.run_lift_bind, SecurityEvent.new, deleteFamily,
      newUuid, nowUtc, utcNow, recordEvent, Program.call_bind, Program.done_bind,
      Program.along_call, Program.pure_eq, Fallible.run_throw]
    refine ⟨⟨_, stored, hfound _, hconsumed⟩, fun deleted => ?_⟩
    cases deleted with
    | error e => exact hfailed _
    | ok _ => exact ⟨trivial, fun _ => ⟨trivial, fun _ => ⟨trivial, fun _ => hcleared _⟩⟩⟩
  · rw [if_neg hconsumed]
    simp only [Fallible.run_lift_bind, utcNow, Program.call_bind, Program.done_bind,
      Program.along_call]
    refine ⟨trivial, fun now => ?_⟩
    by_cases hexpired : stored.isExpired now = true
    · rw [if_pos hexpired]
      simp only [Fallible.run_orFail_bind, delete, Program.call_bind, Program.done_bind,
        Program.along_call, Fallible.run_throw]
      refine ⟨trivial, fun deleted => ?_⟩
      cases deleted with
      | error e => exact hfailed _
      | ok _ => exact hcleared _
    · rw [if_neg hexpired]
      simp only [Fallible.run_orFail_bind, Fallible.run_lift_bind, markConsumed,
        Program.call_bind, Program.done_bind, Program.along_call]
      refine ⟨trivial, fun at_ => ⟨⟨_, stored, hfound _, rfl, by simp⟩, fun consumed => ?_⟩⟩
      cases consumed with
      | error e => exact hfailed _
      | ok _ =>
      simp only [RefreshToken.issueInFamily, newPlaintext, nowUtc, newUuid, utcNow,
        Session.insert, issueToken, Program.call_bind, Program.done_bind, Program.along_call,
        Program.pure_eq]
      refine ⟨trivial, fun plaintext => ⟨trivial, fun created => ⟨trivial, fun id =>
        ⟨⟨?_, rfl, ⟨_, stored, hfound _, rfl⟩, by simp, plaintext, by simp, rfl⟩,
          fun inserted => ?_⟩⟩⟩⟩
      · simp [inserts]
      cases inserted with
      | error e => exact hfailed _
      | ok _ =>
          refine ⟨trivial, fun issued => ?_⟩
          cases issued with
          | error e => exact hfailed _
          | ok accessToken =>
              intro value heq
              obtain rfl := Option.some.inj (Option.some.inj heq)
              exact ⟨RefreshToken.issued prims ttlDays stored.userId stored.familyId id plaintext
                created, by simp [RefreshToken.issued], rfl⟩

theorem refresh_lookup {cookie : Option String} {hash : String}
    {next : Except PortError (Option RefreshToken) → Program SessionPorts RefreshResponse}
    (h : refresh prims ttlDays cookie = .call (.findByHash hash) next) :
    ∃ value, cookie = some value ∧ hash = RefreshToken.hash prims value := by
  unfold refresh at h
  cases hcookie : cookie.filter fun value => value ≠ "" with
  | none =>
      rw [hcookie] at h
      cases h
  | some presented =>
      rw [hcookie] at h
      simp only [rotate, Fallible.run_orFail_bind, findByHash, Program.call_bind,
        Program.done_bind] at h
      injection h with hcall
      injection hcall with hhash
      exact ⟨presented, (Option.filter_eq_some_iff.mp hcookie).1, hhash.symm⟩

end AgentBoilerplate.Browser
