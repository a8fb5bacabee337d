import Mathlib.Data.List.Basic

namespace AgentBoilerplate.Collections

-- A reader that takes items off the front of a buffer, and what each of them yields.
-- What it takes does not depend on what follows.
structure Framer (α β : Type) where
  next : List α → Option (List β × List α)
  shorter : ∀ {buffer items rest}, next buffer = some (items, rest) → rest.length < buffer.length
  stable : ∀ {buffer items rest}, next buffer = some (items, rest) →
    ∀ more, next (buffer ++ more) = some (items, rest ++ more)

namespace Framer

variable {α β : Type} (framer : Framer α β)

-- All that the buffer yields, and what is left of it.
def drain (buffer : List α) : List β × List α :=
  match _h : framer.next buffer with
  | none => ([], buffer)
  | some (items, rest) => (items ++ (drain rest).1, (drain rest).2)
termination_by buffer.length
decreasing_by all_goals exact framer.shorter _h

-- One chunk after the other, with what each of them yields.
def feed (buffer : List α) : List (List α) → List (List β)
  | [] => []
  | chunk :: chunks => (framer.drain (buffer ++ chunk)).1 :: feed (framer.drain (buffer ++ chunk)).2 chunks

variable {framer}

theorem drain_none {buffer : List α} (h : framer.next buffer = none) : framer.drain buffer = ([], buffer) := by
  rw [drain]
  split
  · rfl
  · rename_i hsome
    rw [h] at hsome
    cases hsome

theorem drain_some {buffer rest : List α} {items : List β} (h : framer.next buffer = some (items, rest)) :
    framer.drain buffer = (items ++ (framer.drain rest).1, (framer.drain rest).2) := by
  rw [drain]
  split
  · rename_i hnone
    rw [h] at hnone
    cases hnone
  · rename_i hsome
    rw [h] at hsome
    cases hsome
    rfl

variable (framer)

-- What is left takes part in what comes next: the induction is on the length of the
-- buffer, an item at a time.
theorem drain_append (buffer more : List α) :
    framer.drain (buffer ++ more) =
      ((framer.drain buffer).1 ++ (framer.drain ((framer.drain buffer).2 ++ more)).1,
        (framer.drain ((framer.drain buffer).2 ++ more)).2) := by
  induction hlength : buffer.length using Nat.strongRecOn generalizing buffer with
  | _ length ih =>
    cases h : framer.next buffer with
    | none =>
      rw [drain_none h]
      rfl
    | some taken =>
      obtain ⟨items, rest⟩ := taken
      have hshorter := framer.shorter h
      rw [drain_some h, drain_some (framer.stable h more), ih rest.length (by omega) rest rfl]
      dsimp only
      rw [List.append_assoc]

-- A buffer that was drained yields nothing more.
theorem drain_idle (buffer : List α) : framer.next (framer.drain buffer).2 = none := by
  induction hlength : buffer.length using Nat.strongRecOn generalizing buffer with
  | _ length ih =>
    cases h : framer.next buffer with
    | none =>
      rw [drain_none h]
      exact h
    | some taken =>
      obtain ⟨items, rest⟩ := taken
      have hshorter := framer.shorter h
      rw [drain_some h]
      exact ih rest.length (by omega) rest rfl

theorem feed_flatten (buffer : List α) (hidle : framer.next buffer = none) (chunks : List (List α)) :
    (framer.feed buffer chunks).flatten = (framer.drain (buffer ++ chunks.flatten)).1 := by
  induction chunks generalizing buffer with
  | nil =>
    rw [List.flatten_nil, List.append_nil, drain_none hidle]
    rfl
  | cons chunk chunks ih =>
    unfold feed
    rw [List.flatten_cons, ih _ (framer.drain_idle _), List.flatten_cons, ← List.append_assoc,
      framer.drain_append (buffer ++ chunk)]

-- However a text is cut, it yields what it yields as a whole.
theorem feed_chunks {buffer : List α} (hidle : framer.next buffer = none) (chunks : List (List α)) :
    (framer.feed buffer chunks).flatten = (framer.feed buffer [chunks.flatten]).flatten := by
  rw [framer.feed_flatten buffer hidle, framer.feed_flatten buffer hidle, List.flatten_singleton]

end Framer

end AgentBoilerplate.Collections
