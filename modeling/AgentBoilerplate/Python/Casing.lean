import AgentBoilerplate.Python.Quoting

namespace AgentBoilerplate.Python

open UrlParse

-- The characters around the parts of a host.
def delimiters : List Char := ['/', '?', '#', '@', ':']

-- Neither has an upper nor a lower case.
def isUncased (c : Char) : Bool := (Str.isAscii c ∧ ¬ isAlpha c) ∨ Str.isSpace c

theorem forall_ascii {p : Char → Prop} (h : ∀ n < 128, p (Char.ofNat n)) {c : Char}
    (hc : Str.isAscii c) : p c := by
  have hlt : c.toNat < 0x80 := UInt32.lt_iff_toNat_lt.mp (of_decide_eq_true hc)
  have hp := h c.toNat hlt
  rwa [Char.ofNat_toNat] at hp

theorem isAscii_of_isSchemeChar {c : Char} (h : isSchemeChar c) : Str.isAscii c := by
  unfold isSchemeChar at h
  obtain hc | hc | rfl | rfl | rfl := of_decide_eq_true h
  · exact isAscii_of_isQuoted (decide_eq_true (Or.inl hc))
  · exact isAscii_of_isQuoted (decide_eq_true (Or.inr (Or.inl hc)))
  · rfl
  · rfl
  · rfl

namespace Unicode

section

variable [Unicode]

def Lowered (c : Char) : Prop := lower [c] = [c]

-- Compatibility normalization makes a delimiter of the character.
def Spills (c : Char) : Prop := ∃ d ∈ nfkc [c], d ∈ delimiters

-- What lowering makes of one character.
structure Lowers (c : Char) (piece : List Char) : Prop where
  nonempty : piece ≠ []
  ascii : Str.isAscii c → piece = [c.toLower]
  kept : isUncased c → piece = [c]
  made : ∀ d ∈ piece, isUncased d → c = d
  lowered : ∀ d ∈ piece, Lowered d
  spills : ∀ d ∈ piece, Spills d → Spills c

-- The case of a character depends on those around it, but its place does not.
inductive LowersTo : List Char → List Char → Prop
  | nil : LowersTo [] []
  | cons {c piece s t} : Lowers c piece → LowersTo s t → LowersTo (c :: s) (piece ++ t)

end

-- What holds of the tables of the interpreter's Unicode version.
class Lawful [Unicode] : Prop where
  lowersTo_lower : ∀ s : List Char, LowersTo s (lower s)
  lower_lowered : ∀ s : List Char, (∀ c ∈ s, Lowered c) → lower s = s
  spills_of_nfkc : ∀ s : List Char, ∀ d ∈ nfkc s, d ∈ delimiters → ∃ c ∈ s, Spills c
  nfkc_of_spills : ∀ s : List Char, ∀ c ∈ s, Spills c → ∃ d ∈ nfkc s, d ∈ delimiters
  nfkc_ascii : ∀ c : Char, Str.isAscii c → nfkc [c] = [c]

section

variable [Unicode] {s t : List Char} {c d : Char}

theorem LowersTo.ne_nil (h : LowersTo s t) (hs : s ≠ []) : t ≠ [] := by
  cases h with
  | nil => exact hs
  | cons hc _ =>
    intro hnil
    exact hc.nonempty (List.append_eq_nil_iff.mp hnil).1

theorem LowersTo.mem (h : LowersTo s t) (hd : d ∈ t) :
    ∃ c ∈ s, ∃ piece, Lowers c piece ∧ d ∈ piece := by
  induction h with
  | nil => exact absurd hd List.not_mem_nil
  | cons hc _ ih =>
    obtain hpiece | hrest := List.mem_append.mp hd
    · exact ⟨_, List.mem_cons_self, _, hc, hpiece⟩
    · obtain ⟨c, hmem, found⟩ := ih hrest
      exact ⟨c, List.mem_cons_of_mem _ hmem, found⟩

-- Characters without case are where they were.
theorem LowersTo.mem_uncased (h : LowersTo s t) (hd : isUncased d) : d ∈ t ↔ d ∈ s := by
  constructor
  · intro hmem
    obtain ⟨c, hc, piece, hlowers, hpiece⟩ := h.mem hmem
    rwa [← hlowers.made d hpiece hd]
  · intro hmem
    induction h with
    | nil => exact hmem
    | cons hc _ ih =>
      rw [List.mem_append]
      obtain rfl | hrest := List.mem_cons.mp hmem
      · rw [hc.kept hd]
        exact Or.inl List.mem_cons_self
      · exact Or.inr (ih hrest)

theorem LowersTo.lowered (h : LowersTo s t) : ∀ d ∈ t, Lowered d := by
  intro d hd
  obtain ⟨_, _, _, hlowers, hpiece⟩ := h.mem hd
  exact hlowers.lowered d hpiece

-- The text around a character without case.
theorem LowersTo.around {before after : List Char} (h : LowersTo (before ++ c :: after) t)
    (hc : isUncased c) : ∃ before' after', t = before' ++ c :: after' ∧
      LowersTo before before' ∧ LowersTo after after' := by
  induction before generalizing t with
  | nil =>
    cases h with
    | cons hpiece hrest =>
      rw [hpiece.kept hc]
      exact ⟨[], _, rfl, .nil, hrest⟩
  | cons d before ih =>
    cases h with
    | cons hpiece hrest =>
      obtain ⟨before', after', rfl, hbefore, hafter⟩ := ih hrest
      exact ⟨_, after', (List.append_assoc _ _ _).symm, .cons hpiece hbefore, hafter⟩

theorem LowersTo.head_uncased (h : LowersTo s t) (hd : isUncased d) :
    t.head? = some d ↔ s.head? = some d := by
  cases h with
  | nil => rfl
  | @cons c piece s t hpiece _ =>
    obtain ⟨e, rest, rfl⟩ := List.exists_cons_of_ne_nil hpiece.nonempty
    rw [List.cons_append, List.head?_cons, List.head?_cons, Option.some.injEq, Option.some.injEq]
    constructor
    · rintro rfl
      exact hpiece.made e List.mem_cons_self hd
    · rintro rfl
      have hkept := hpiece.kept hd
      rw [List.cons.injEq] at hkept
      exact hkept.1

theorem LowersTo.eq_of_uncased (h : LowersTo s t) (hs : ∀ c ∈ s, isUncased c) : t = s := by
  induction h with
  | nil => rfl
  | cons hc _ ih =>
    rw [hc.kept (hs _ List.mem_cons_self), ih fun c hmem => hs c (List.mem_cons_of_mem _ hmem)]
    rfl

theorem LowersTo.eq_of_made (h : LowersTo s t) (ht : ∀ d ∈ t, isUncased d) : t = s := by
  refine h.eq_of_uncased fun c hc => ?_
  obtain ⟨piece, hpiece, hsub⟩ : ∃ piece, Lowers c piece ∧ ∀ d ∈ piece, d ∈ t := by
    clear ht
    induction h with
    | nil => exact absurd hc List.not_mem_nil
    | cons hpiece _ ih =>
      obtain rfl | hrest := List.mem_cons.mp hc
      · exact ⟨_, hpiece, fun d hd => List.mem_append_left _ hd⟩
      · obtain ⟨piece, hlowers, hsub⟩ := ih hrest
        exact ⟨piece, hlowers, fun d hd => List.mem_append_right _ (hsub d hd)⟩
  obtain ⟨d, hd⟩ := List.exists_mem_of_ne_nil piece hpiece.nonempty
  have huncased := ht d (hsub d hd)
  rwa [hpiece.made d hd huncased]

theorem LowersTo.ascii (h : LowersTo s t) (hs : s.all Str.isAscii) : t = s.map Char.toLower := by
  induction h with
  | nil => rfl
  | cons hc _ ih =>
    rw [List.all_cons, Bool.and_eq_true] at hs
    rw [hc.ascii hs.1, ih hs.2]
    rfl

variable [Lawful]

theorem lowersTo_lower (s : List Char) : LowersTo s (lower s) := Lawful.lowersTo_lower s

theorem lowered_of_mem_lower (h : c ∈ lower s) : Lowered c := (lowersTo_lower s).lowered c h

theorem lower_singleton (h : isUncased c) : Lowered c :=
  (lowersTo_lower [c]).eq_of_uncased fun _ hmem => List.mem_singleton.mp hmem ▸ h

theorem lower_eq_self (h : ∀ c ∈ s, Lowered c) : lower s = s := Lawful.lower_lowered s h

theorem lower_lower (s : List Char) : lower (lower s) = lower s :=
  lower_eq_self fun _ => lowered_of_mem_lower

theorem spills_ascii (hc : Str.isAscii c) : Spills c ↔ c ∈ delimiters := by
  unfold Spills
  rw [Lawful.nfkc_ascii c hc]
  simp

-- A text whose characters neither are delimiters nor spill any.
theorem notMem_nfkc (h : ∀ c ∈ s, ¬ Spills c) : ∀ d ∈ delimiters, d ∉ nfkc s := by
  intro d hd hmem
  obtain ⟨c, hc, hspills⟩ := Lawful.spills_of_nfkc s d hmem hd
  exact h c hc hspills

end

end Unicode

end AgentBoilerplate.Python
