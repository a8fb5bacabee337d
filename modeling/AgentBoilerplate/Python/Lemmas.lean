import AgentBoilerplate.Python.Str

namespace AgentBoilerplate.Python.Str

-- What a test of every character of a text says.
theorem forall_of_all {s : List Char} {p : Char → Prop} [DecidablePred p] (h : s.all fun c => p c) :
    ∀ c ∈ s, p c := fun c hc => of_decide_eq_true (List.all_eq_true.mp h c hc)

section

variable {sep : Char} {s before after : List Char}

theorem partition_of_notMem (h : sep ∉ s) : partition sep s = (s, false, []) := by
  induction s with
  | nil => rfl
  | cons c s ih =>
    rw [List.mem_cons, not_or] at h
    unfold partition
    rw [if_neg (Ne.symm h.1), ih h.2]

theorem partition_append (h : sep ∉ before) :
    partition sep (before ++ sep :: after) = (before, true, after) := by
  induction before with
  | nil =>
    rw [List.nil_append]
    unfold partition
    rw [if_pos rfl]
  | cons c before ih =>
    rw [List.mem_cons, not_or] at h
    rw [List.cons_append]
    unfold partition
    rw [if_neg (Ne.symm h.1), ih h.2]

theorem partition_cases (sep : Char) (s : List Char) :
    (sep ∉ s ∧ partition sep s = (s, false, [])) ∨
      ∃ before after, s = before ++ sep :: after ∧ sep ∉ before ∧
        partition sep s = (before, true, after) := by
  by_cases h : sep ∈ s
  · obtain ⟨before, after, rfl, hfirst⟩ := List.eq_append_cons_of_mem h
    exact Or.inr ⟨before, after, rfl, hfirst, partition_append hfirst⟩
  · exact Or.inl ⟨h, partition_of_notMem h⟩

theorem notMem_before (sep : Char) (s : List Char) : sep ∉ (partition sep s).1 := by
  obtain ⟨h, heq⟩ | ⟨before, after, _, h, heq⟩ := partition_cases sep s
  · rwa [heq]
  · rwa [heq]

theorem mem_of_mem_before {c : Char} (h : c ∈ (partition sep s).1) : c ∈ s := by
  obtain ⟨_, heq⟩ | ⟨before, after, hs, _, heq⟩ := partition_cases sep s
  · rwa [heq] at h
  · rw [heq] at h
    rw [hs]
    exact List.mem_append_left _ h

theorem mem_of_mem_after {c : Char} (h : c ∈ (partition sep s).2.2) : c ∈ s := by
  obtain ⟨_, heq⟩ | ⟨before, after, hs, _, heq⟩ := partition_cases sep s
  · rw [heq] at h
    exact absurd h List.not_mem_nil
  · rw [heq] at h
    rw [hs]
    exact List.mem_append_right _ (List.mem_cons_of_mem _ h)

theorem rpartition_of_notMem (h : sep ∉ s) : rpartition sep s = ([], false, s) := by
  have hreverse : sep ∉ s.reverse := fun hsep => h (List.mem_reverse.mp hsep)
  unfold rpartition
  rw [partition_of_notMem hreverse]
  rfl

theorem rpartition_append (h : sep ∉ after) :
    rpartition sep (before ++ sep :: after) = (before, true, after) := by
  have hreverse : (before ++ sep :: after).reverse = after.reverse ++ sep :: before.reverse := by
    simp
  have hfirst : sep ∉ after.reverse := fun hsep => h (List.mem_reverse.mp hsep)
  unfold rpartition
  rw [hreverse, partition_append hfirst]
  simp

theorem rpartition_cases (sep : Char) (s : List Char) :
    (sep ∉ s ∧ rpartition sep s = ([], false, s)) ∨
      ∃ before after, s = before ++ sep :: after ∧ sep ∉ after ∧
        rpartition sep s = (before, true, after) := by
  by_cases h : sep ∈ s
  · obtain ⟨before, after, hsplit, hfirst⟩ := List.eq_append_cons_of_mem (List.mem_reverse.mpr h)
    have hs : s = after.reverse ++ sep :: before.reverse := by
      rw [← s.reverse_reverse, hsplit]
      simp
    have hlast : sep ∉ before.reverse := fun hsep => hfirst (List.mem_reverse.mp hsep)
    subst hs
    exact Or.inr ⟨_, _, rfl, hlast, rpartition_append hlast⟩
  · exact Or.inl ⟨h, rpartition_of_notMem h⟩

end

-- The order of strings is total.
section

variable (a b c : List Char)

theorem le_total : le a b ∨ le b a := by
  induction a generalizing b with
  | nil => exact Or.inl (by unfold le; rfl)
  | cons x a ih =>
    cases b with
    | nil => exact Or.inr (by unfold le; rfl)
    | cons y b =>
      unfold le
      by_cases heq : x = y
      · subst heq
        simpa using ih b
      · rw [if_neg heq, if_neg (Ne.symm heq), decide_eq_true_eq, decide_eq_true_eq]
        have hne : x.val ≠ y.val := fun hval => heq (Char.ext hval)
        rw [← UInt32.toNat_inj.ne] at hne
        rw [UInt32.lt_iff_toNat_lt, UInt32.lt_iff_toNat_lt]
        omega

theorem le_trans (hab : le a b) (hbc : le b c) : le a c := by
  induction a generalizing b c with
  | nil => unfold le; rfl
  | cons x a ih =>
    cases b with
    | nil => exact absurd hab (by unfold le; exact Bool.false_ne_true)
    | cons y b =>
      cases c with
      | nil => exact absurd hbc (by unfold le; exact Bool.false_ne_true)
      | cons z c =>
        unfold le at hab hbc ⊢
        by_cases hxy : x = y
        · subst hxy
          by_cases hxz : x = z
          · subst hxz
            rw [if_pos rfl] at hab hbc ⊢
            exact ih b c hab hbc
          · rw [if_neg hxz] at hbc ⊢
            exact hbc
        · rw [if_neg hxy, decide_eq_true_eq] at hab
          by_cases hyz : y = z
          · subst hyz
            rw [if_neg hxy, decide_eq_true_eq]
            exact hab
          · rw [if_neg hyz, decide_eq_true_eq] at hbc
            have hlt := UInt32.lt_trans hab hbc
            have hxz : x ≠ z := by
              rintro rfl
              exact UInt32.lt_irrefl _ hlt
            rw [if_neg hxz, decide_eq_true_eq]
            exact hlt

theorem le_antisymm (hab : le a b) (hba : le b a) : a = b := by
  induction a generalizing b with
  | nil =>
    cases b with
    | nil => rfl
    | cons y b => exact absurd hba (by unfold le; exact Bool.false_ne_true)
  | cons x a ih =>
    cases b with
    | nil => exact absurd hab (by unfold le; exact Bool.false_ne_true)
    | cons y b =>
      unfold le at hab hba
      by_cases hxy : x = y
      · subst hxy
        rw [if_pos rfl] at hab hba
        rw [ih b hab hba]
      · rw [if_neg hxy, decide_eq_true_eq] at hab
        rw [if_neg (Ne.symm hxy), decide_eq_true_eq] at hba
        exact absurd (UInt32.lt_trans hab hba) (UInt32.lt_irrefl _)

end

end AgentBoilerplate.Python.Str
