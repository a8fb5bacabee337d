import AgentBoilerplate.Session.Lemmas

namespace AgentBoilerplate.Session

open Effects Collections

variable (prims : Primitives) (ttlDays : Int) (presented : String)

-- The calls a session has made so far found the presented token.
def Found (past : List (Event SessionPorts)) (stored : RefreshToken) : Prop :=
  (⟨.findByHash (RefreshToken.hash prims presented), .ok (some stored)⟩ : Event SessionPorts) ∈ past

def Marked (past : List (Event SessionPorts)) : Prop :=
  ∃ id at_, (⟨.markConsumed id at_, .ok ()⟩ : Event SessionPorts) ∈ past

-- A rotate marks the token it found unconsumed, and inserts a successor of it
-- under a fresh identifier and a fresh plaintext; it succeeds past its mark.
structure RotateShape (past : List (Event SessionPorts))
    (p : Program SessionPorts SessionOutcome) : Prop where
  mark : ∀ id at_ next, p = .call (.markConsumed id at_) next →
    ∃ stored, Found prims presented past stored ∧ stored.consumedAt = none ∧ id = stored.id
  insert : ∀ token next, p = .call (.insert token) next →
    Marked past ∧ ∃ stored, Found prims presented past stored ∧ token.userId = stored.userId ∧
      token.familyId = stored.familyId ∧ token.consumedAt = none ∧
      (⟨.newUuid, token.id⟩ : Event SessionPorts) ∈ past ∧
      ∃ plaintext, (⟨.newPlaintext, plaintext⟩ : Event SessionPorts) ∈ past ∧
        token.tokenHash = RefreshToken.hash prims plaintext
  success : ∀ tokens, p = .done (.rotate (.ok tokens)) →
    Marked past ∧ ∃ stored, Found prims presented past stored

-- The two calls a rotate writes tokens with.
def writes : SessionCall → Bool
  | .markConsumed _ _ | .insert _ => true
  | _ => false

-- At any other call, and where it fails, the shape of a rotate says nothing.
theorem rotateShape_call {past : List (Event SessionPorts)} {request : SessionCall}
    {next : request.Answer → Program SessionPorts SessionOutcome} (h : writes request = false) :
    RotateShape prims presented past (.call request next) where
  mark id at_ _ hcall := by
    rw [(Program.call.inj hcall).1] at h
    cases h
  insert token _ hcall := by
    rw [(Program.call.inj hcall).1] at h
    cases h
  success _ hcall := by cases hcall

theorem rotateShape_error (past : List (Event SessionPorts)) (e : RefreshError) :
    RotateShape prims presented past (.done (.rotate (.error e))) where
  mark _ _ _ h := by cases h
  insert _ _ h := by cases h
  success _ h := by cases h

theorem rotate_shape :
    ((SessionOp.rotate presented).program prims ttlDays).Along (RotateShape prims presented) [] := by
  have herror := rotateShape_error prims presented
  simp only [SessionOp.program, rotate, Fallible.run_orFail_bind, findByHash, Program.call_bind, Program.done_bind,
    Program.along_call]
  refine ⟨rotateShape_call prims presented rfl, ?_⟩
  rintro (e | _ | stored)
  · exact herror _ _
  · exact herror _ _
  dsimp only
  split
  · -- a reuse takes the family away and is recorded; nothing is marked
    simp only [Fallible.run_orFail_bind, Fallible.run_lift_bind, SecurityEvent.new, deleteFamily,
      newUuid, nowUtc, utcNow, recordEvent, Program.call_bind, Program.done_bind,
      Program.along_call, Program.pure_eq, Fallible.run_throw]
    refine ⟨rotateShape_call prims presented rfl, ?_⟩
    rintro (e | _)
    · exact herror _ _
    · exact ⟨rotateShape_call prims presented rfl, fun _ =>
        ⟨rotateShape_call prims presented rfl, fun _ =>
          ⟨rotateShape_call prims presented rfl, fun _ => herror _ _⟩⟩⟩
  · rename_i hlive
    have hnone : stored.consumedAt = none := by simpa [RefreshToken.isConsumed] using hlive
    simp only [Fallible.run_lift_bind, utcNow, Program.call_bind, Program.done_bind,
      Program.along_call]
    refine ⟨rotateShape_call prims presented rfl, fun now => ?_⟩
    split
    · simp only [Fallible.run_orFail_bind, delete, Program.call_bind, Program.done_bind,
        Program.along_call, Fallible.run_throw]
      refine ⟨rotateShape_call prims presented rfl, ?_⟩
      rintro (e | _)
      · exact herror _ _
      · exact herror _ _
    · simp only [Fallible.run_orFail_bind, Fallible.run_lift_bind, markConsumed,
        Program.call_bind, Program.done_bind, Program.along_call]
      refine ⟨rotateShape_call prims presented rfl, fun at_ =>
        ⟨⟨?_, by simp, by simp⟩, ?_⟩⟩
      · intro id _ next h
        cases h
        exact ⟨stored, by simp [Found], hnone, rfl⟩
      rintro (e | _)
      · exact herror _ _
      simp only [RefreshToken.issueInFamily, newPlaintext, nowUtc, newUuid, utcNow, insert,
        issueToken, Program.call_bind, Program.done_bind, Program.along_call, Program.pure_eq]
      refine ⟨rotateShape_call prims presented rfl, fun plaintext =>
        ⟨rotateShape_call prims presented rfl, fun created =>
          ⟨rotateShape_call prims presented rfl, fun id => ⟨⟨by simp, ?_, by simp⟩, ?_⟩⟩⟩⟩
      · intro token next h
        cases h
        exact ⟨⟨stored.id, at_, by simp⟩, stored, by simp [Found], rfl, rfl, rfl, by simp,
          plaintext, by simp, rfl⟩
      rintro (e | _)
      · exact herror _ _
      refine ⟨rotateShape_call prims presented rfl, ?_⟩
      rintro (e | accessToken)
      · exact herror _ _
      · exact ⟨by simp, by simp, fun _ _ => ⟨⟨stored.id, at_, by simp⟩, stored, by simp [Found]⟩⟩

theorem revoke_shape :
    ((SessionOp.revoke presented).program prims ttlDays).Along
      (RotateShape prims presented) [] := by
  have hdone : ∀ past result,
      RotateShape prims presented past (.done (.revoke result)) := fun _ _ =>
    ⟨by simp, by simp, by simp⟩
  simp only [SessionOp.program, revoke, Fallible.run_orFail_bind, findByHash, Program.call_bind,
    Program.done_bind, Program.along_call]
  refine ⟨rotateShape_call prims presented rfl, ?_⟩
  rintro (e | _ | stored)
  · exact hdone _ _
  · exact hdone _ _
  simp only [Fallible.run_orFail, deleteFamily, Program.call_bind, Program.done_bind,
    Program.along_call]
  refine ⟨rotateShape_call prims presented rfl, ?_⟩
  rintro (e | _)
  · exact hdone _ _
  · exact hdone _ _

theorem presented_shape {op : SessionOp} (h : op.presented? = some presented) :
    (op.program prims ttlDays).Along (RotateShape prims presented) [] := by
  cases op with
  | login email password => simp [SessionOp.presented?] at h
  | rotate token =>
      obtain rfl : token = presented := by simpa [SessionOp.presented?] using h
      exact rotate_shape prims ttlDays token
  | revoke token =>
      obtain rfl : token = presented := by simpa [SessionOp.presented?] using h
      exact revoke_shape prims ttlDays token
  | purgeExpired => simp [SessionOp.presented?] at h

theorem SessionOutcome.rotated_iff (outcome : SessionOutcome) :
    outcome.rotated = true ↔ ∃ tokens, outcome = .rotate (.ok tokens) := by
  unfold rotated
  split
  · simp
  · rename_i h
    simpa using fun tokens hout => h tokens hout

theorem rotated_iff (thread : Thread SessionPorts SessionOutcome) :
    rotated thread = true ↔ ∃ tokens, thread.rest = .done (.rotate (.ok tokens)) := by
  unfold rotated
  cases hrest : thread.rest with
  | done outcome => simp [SessionOutcome.rotated_iff]
  | call request next => simp

end AgentBoilerplate.Session
