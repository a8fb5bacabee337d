import AgentBoilerplate.Agent.Dates
import Mathlib.Data.List.Find

namespace AgentBoilerplate.Agent.JsonDecoder

open Python

def Blank (text : List Char) : Prop := ∀ c ∈ text, Str.isSpace c

-- Blanks after a text are left over, and do not matter for what is read.
def Cuts {α : Type} (run : List Char → Except PyException (α × List Char)) : Prop :=
  ∀ text blanks, Blank blanks → ∀ value last, run (text ++ blanks) = .ok (value, last) →
    ∃ rest, last = rest ++ blanks ∧ run text = .ok (value, rest)

section

variable {text blanks : List Char}

theorem Blank.notMem (h : Blank blanks) {c : Char} (hc : ¬ Str.isSpace c) : c ∉ blanks :=
  fun hmem => hc (h c hmem)

theorem Blank.head (h : Blank blanks) {c : Char} {rest : List Char} (heq : blanks = c :: rest) :
    Str.isSpace c := h c (heq ▸ List.mem_cons_self)

theorem Blank.of_suffix {rest : List Char} (h : Blank blanks) (hrest : rest <:+ blanks) :
    Blank rest := fun c hc => h c (hrest.subset hc)

theorem takeWhile_blank {p : Char → Bool} (h : Blank blanks) (hp : ∀ c, Str.isSpace c → ¬ p c) :
    (text ++ blanks).takeWhile p = text.takeWhile p := by
  induction text with
  | nil =>
      cases blanks with
      | nil => rfl
      | cons c rest => exact List.takeWhile_cons_of_neg (hp c (h.head rfl))
  | cons c text ih => rw [List.cons_append, List.takeWhile_cons, List.takeWhile_cons, ih]

-- White space before blanks ends with the text or in the blanks.
theorem dropWhile_blank {p : Char → Bool} (text blanks : List Char) :
    (text ++ blanks).dropWhile p = text.dropWhile p ++ blanks ∨
      text.dropWhile p = [] ∧ (text ++ blanks).dropWhile p = blanks.dropWhile p := by
  induction text with
  | nil => exact Or.inr ⟨rfl, rfl⟩
  | cons c text ih =>
      rw [List.cons_append, List.dropWhile_cons, List.dropWhile_cons]
      by_cases hc : p c
      · rw [if_pos hc, if_pos hc]
        exact ih
      · rw [if_neg hc, if_neg hc]
        exact Or.inl rfl

theorem isSpace_of_isWhitespace {c : Char} (h : isWhitespace c) : Str.isSpace c := by
  obtain rfl | rfl | rfl | rfl := of_decide_eq_true h <;> rfl

theorem append_eq_cons (h : Blank blanks) {c : Char} {rest : List Char} (hc : ¬ Str.isSpace c)
    (heq : text ++ blanks = c :: rest) : ∃ text', text = c :: text' ∧ rest = text' ++ blanks := by
  cases text with
  | nil => exact absurd (h.head heq) hc
  | cons d text =>
      rw [List.cons_append, List.cons.injEq] at heq
      exact ⟨text, by rw [heq.1], heq.2.symm⟩

-- What is not white space comes from the text.
theorem spaced_eq_cons (h : Blank blanks) {c : Char} {rest : List Char} (hc : ¬ Str.isSpace c)
    (heq : (text ++ blanks).dropWhile isWhitespace = c :: rest) :
    ∃ text', text.dropWhile isWhitespace = c :: text' ∧ rest = text' ++ blanks := by
  obtain hsplit | ⟨-, hsplit⟩ := dropWhile_blank (p := isWhitespace) text blanks
  · rw [hsplit] at heq
    exact append_eq_cons h hc heq
  · rw [hsplit] at heq
    exact absurd ((h.of_suffix (List.dropWhile_suffix _)).head heq) hc

theorem Cuts.spaced {α : Type} {run : List Char → Except PyException (α × List Char)}
    (hrun : Cuts run) (hshrinks : Shrinks run) (h : Blank blanks) {value : α} {last : List Char}
    (hlast : run ((text ++ blanks).dropWhile isWhitespace) = .ok (value, last)) :
    ∃ rest, last = rest ++ blanks ∧ run (text.dropWhile isWhitespace) = .ok (value, rest) := by
  obtain hsplit | ⟨hnil, hsplit⟩ := dropWhile_blank (p := isWhitespace) text blanks
  · rw [hsplit] at hlast
    exact hrun _ _ h _ _ hlast
  · rw [hsplit] at hlast
    obtain ⟨rest, -, hempty⟩ := hrun [] _ (h.of_suffix (List.dropWhile_suffix _)) _ _ hlast
    exact absurd (hshrinks _ _ _ hempty).length (Nat.not_lt_zero _)

theorem scanstring_blank (h : Blank blanks) (result : List Char × List Char) :
    scanstring blanks ≠ .ok result := by
  intro hscan
  fun_induction scanstring blanks generalizing result with
  | case1 => cases hscan
  | case2 => exact absurd (h.head rfl) (by decide)
  | case3 => exact absurd (h.head rfl) (by decide)
  | case4 => cases hscan
  | case5 c rest hquote hbackslash hcontrol ih =>
      cases hlast : scanstring rest with
      | error e =>
          rw [hlast] at hscan
          cases hscan
      | ok last => exact ih (h.of_suffix (List.suffix_cons c rest)) last hlast

-- An escape ends before the blanks, and what it looks at beyond its end does not matter.
theorem scanEscape_cut {c : Char} {length : Nat} (h : scanEscape (text ++ blanks) = .ok (c, length))
    (hlength : length < text.length) : scanEscape text = .ok (c, length) := by
  cases text with
  | nil => exact absurd hlength (Nat.not_lt_zero _)
  | cons d text =>
      rw [List.length_cons] at hlength
      by_cases hu : d = 'u'
      · subst hu
        simp only [List.cons_append, scanEscape] at h ⊢
        have hfour : 5 ≤ length := by
          split at h
          · cases h
          · split at h
            · cases h
            · split at h
              · split at h
                · cases h
                · split at h
                  · rw [← (Prod.mk.inj (Except.ok.inj h)).2]
                    decide
                  · rw [← (Prod.mk.inj (Except.ok.inj h)).2]
              · rw [← (Prod.mk.inj (Except.ok.inj h)).2]
        rw [List.take_append_of_le_length (by omega : 4 ≤ text.length),
          List.drop_append_of_le_length (by omega : 4 ≤ text.length)] at h
        cases hunit : codeUnit (text.take 4) with
        | none =>
            rw [hunit] at h
            cases h
        | some unit =>
            rw [hunit] at h
            dsimp only at h ⊢
            rw [if_neg (by rw [List.length_append]; omega)] at h
            rw [if_neg (by omega)]
            by_cases hpair : isHighSurrogate unit = true ∧ (text.drop 4).take 2 = ['\\', 'u'] ∧
                (text.drop 4).length > 6
            · have hsecond : 6 ≤ (text.drop 4).length := by omega
              rw [List.take_append_of_le_length (by omega : 2 ≤ (text.drop 4).length),
                if_pos ⟨hpair.1, hpair.2.1, by rw [List.length_append]; omega⟩,
                List.drop_append_of_le_length (by omega : 2 ≤ (text.drop 4).length),
                List.take_append_of_le_length (by rw [List.length_drop]; omega)] at h
              rw [if_pos hpair]
              exact h
            · rw [if_neg hpair]
              split at h
              · rename_i hfull
                split at h
                · cases h
                · split at h
                  · have heleven := (Prod.mk.inj (Except.ok.inj h)).2
                    refine absurd ⟨hfull.1, ?_, ?_⟩ hpair
                    · rw [← hfull.2.1,
                        List.take_append_of_le_length (by rw [List.length_drop]; omega)]
                    · rw [List.length_drop]
                      omega
                  · exact h
              · exact h
      · rw [List.cons_append] at h
        unfold scanEscape at h ⊢
        split at h
        · cases h
        · rename_i hcons
          rw [List.cons.injEq] at hcons
          exact absurd hcons.1 hu
        · rename_i hcons
          rw [List.cons.injEq] at hcons
          obtain ⟨rfl, -⟩ := hcons
          exact h

theorem scanstring_cuts : Cuts scanstring := by
  intro text blanks h value last hlast
  generalize hwhole : text ++ blanks = whole at hlast
  fun_induction scanstring whole generalizing text value last with
  | case1 => cases hlast
  | case2 rest =>
      cases hlast
      obtain ⟨text, rfl, rfl⟩ := append_eq_cons h (by decide) hwhole
      exact ⟨text, rfl, by rw [scanstring]⟩
  | case3 rest ih =>
      obtain ⟨text, rfl, rfl⟩ := append_eq_cons h (by decide) hwhole
      cases hescape : scanEscape (text ++ blanks) with
      | error e =>
          rw [hescape] at hlast
          cases hlast
      | ok escape =>
          obtain ⟨c, length⟩ := escape
          cases hscan : scanstring ((text ++ blanks).drop length) with
          | error e =>
              rw [hescape] at hlast
              simp only [bind, Except.bind, hscan] at hlast
              cases hlast
          | ok scanned =>
              have hlength : length < text.length := by
                by_contra hle
                refine scanstring_blank (h.of_suffix ?_) scanned hscan
                rw [List.drop_append, List.drop_eq_nil_of_le (by omega), List.nil_append]
                exact List.drop_suffix _ _
              rw [hescape] at hlast
              simp only [bind, Except.bind, hscan] at hlast
              cases hlast
              obtain ⟨rest, hrest, hshort⟩ := ih length _ _ _
                (List.drop_append_of_le_length hlength.le).symm hscan
              refine ⟨rest, hrest, ?_⟩
              rw [scanstring, scanEscape_cut hescape hlength]
              simp only [bind, Except.bind, hshort]
              rfl
  | case4 => cases hlast
  | case5 c rest hquote hbackslash hcontrol ih =>
      cases hscan : scanstring rest with
      | error e =>
          simp only [bind, Except.bind, hscan] at hlast
          cases hlast
      | ok scanned =>
          simp only [bind, Except.bind, hscan] at hlast
          cases hlast
          cases text with
          | nil =>
              refine absurd hscan (scanstring_blank (h.of_suffix ?_) scanned)
              rw [List.nil_append] at hwhole
              rw [hwhole]
              exact List.suffix_cons c rest
          | cons d text =>
              rw [List.cons_append, List.cons.injEq] at hwhole
              obtain ⟨rfl, hwhole⟩ := hwhole
              obtain ⟨rest, hrest, hshort⟩ := ih _ _ _ hwhole hscan
              refine ⟨rest, hrest, ?_⟩
              rw [scanstring.eq_4 _ _ hquote hbackslash, if_neg hcontrol]
              simp only [bind, Except.bind, hshort]
              rfl

-- Neither a sign nor a digit is a blank.
theorem take_one_blank {p : Char → Bool} (h : Blank blanks) (hp : ∀ c, Str.isSpace c → ¬ p c) :
    ((text ++ blanks).take 1).filter p = (text.take 1).filter p := by
  cases text with
  | nil =>
      cases blanks with
      | nil => rfl
      | cons c rest => exact List.filter_cons_of_neg (hp c (h.head rfl))
  | cons c text => rfl

theorem take_one_le (p : Char → Bool) (text : List Char) :
    ((text.take 1).filter p).length ≤ text.length :=
  (List.length_filter_le p _).trans (List.length_take_le' 1 text)

theorem not_isDigit (c : Char) (h : Str.isSpace c) : ¬ isDigit c := by
  intro hdigit
  have hdigit := of_decide_eq_true hdigit
  have hlow := UInt32.le_iff_toNat_le.mp hdigit.1
  have hhigh := UInt32.le_iff_toNat_le.mp hdigit.2
  have hspace := of_decide_eq_true h
  simp only [UInt32.le_iff_toNat_le, ← UInt32.toNat_inj] at hspace
  simp at hspace hlow hhigh
  omega

theorem scanFraction_blank (h : Blank blanks) : scanFraction (text ++ blanks) = scanFraction text := by
  cases text with
  | nil =>
      cases blanks with
      | nil => rfl
      | cons c rest =>
          have hc : c ≠ '.' := fun heq => absurd (heq ▸ h.head rfl) (by decide)
          exact scanFraction.eq_2 _ fun rest' heq => hc (List.cons.inj heq).1
  | cons c text =>
      by_cases hc : c = '.'
      · subst hc
        rw [List.cons_append, scanFraction, scanFraction, takeWhile_blank h not_isDigit]
      · rw [List.cons_append, scanFraction.eq_2 _ fun rest heq => hc (List.cons.inj heq).1,
          scanFraction.eq_2 _ fun rest heq => hc (List.cons.inj heq).1]

theorem scanExponent_blank (h : Blank blanks) : scanExponent (text ++ blanks) = scanExponent text := by
  cases text with
  | nil =>
      cases blanks with
      | nil => rfl
      | cons c rest =>
          have hc : ¬ (c = 'e' ∨ c = 'E') := by
            rintro (rfl | rfl) <;> exact absurd (h.head rfl) (by decide)
          exact if_neg hc
  | cons c text =>
      rw [List.cons_append, scanExponent, scanExponent]
      have hsign : ∀ c, Str.isSpace c → ¬ decide (c = '-' ∨ c = '+') := by
        intro c hspace hsign
        obtain rfl | rfl := of_decide_eq_true hsign <;> exact absurd hspace (by decide)
      rw [take_one_blank h hsign]
      dsimp only
      rw [List.drop_append_of_le_length (take_one_le _ text), takeWhile_blank h not_isDigit]

-- The parts of a number are read off a text one after the other.
theorem scanFraction_begins (text : List Char) : scanFraction text <+: text := by
  unfold scanFraction
  split
  · rename_i rest
    dsimp only
    split
    · exact List.nil_prefix
    · exact (List.prefix_cons_inj '.').mpr ( List.takeWhile_prefix isDigit)
  · exact List.nil_prefix

theorem filter_take_one (p : Char → Bool) (text : List Char) : (text.take 1).filter p <+: text := by
  cases text with
  | nil => exact List.nil_prefix
  | cons c text =>
      rw [List.take_succ_cons, List.take_zero, List.filter_cons]
      split
      · exact (List.prefix_cons_inj c).mpr List.nil_prefix
      · exact List.nil_prefix

theorem prefix_append {first second text : List Char} (hfirst : first <+: text)
    (hsecond : second <+: text.drop first.length) : first ++ second <+: text := by
  obtain ⟨rest, rfl⟩ := hfirst
  rw [List.drop_left] at hsecond
  exact (List.prefix_append_right_inj first).mpr hsecond

theorem scanExponent_begins (text : List Char) : scanExponent text <+: text := by
  unfold scanExponent
  split
  · rename_i e rest
    dsimp only
    split
    · split
      · exact List.nil_prefix
      · rw [List.cons_append]
        refine (List.prefix_cons_inj e).mpr (prefix_append (filter_take_one _ rest) ?_)
        exact List.takeWhile_prefix isDigit
    · exact List.nil_prefix
  · exact List.nil_prefix

-- The digits before a point: a zero is alone.
theorem leading_begins (text : List Char) :
    (if text.head? = some '0' then ['0'] else text.takeWhile isDigit) <+: text := by
  split
  · rename_i hhead
    obtain ⟨rest, rfl⟩ := List.head?_eq_some_iff.mp hhead
    exact (List.prefix_cons_inj '0').mpr List.nil_prefix
  · exact List.takeWhile_prefix isDigit

theorem leading_blank (h : Blank blanks) :
    (if (text ++ blanks).head? = some '0' then ['0'] else (text ++ blanks).takeWhile isDigit) =
      if text.head? = some '0' then ['0'] else text.takeWhile isDigit := by
  rw [takeWhile_blank h not_isDigit]
  cases text with
  | nil =>
      have hhead : ¬ blanks.head? = some '0' := by
        intro hhead
        obtain ⟨rest, rfl⟩ := List.head?_eq_some_iff.mp hhead
        exact absurd (h.head rfl) (by decide)
      rw [List.nil_append, if_neg hhead]
      rfl
  | cons c text => rfl

theorem readNumber_begins (text : List Char) : (readNumber text).text <+: text := by
  unfold readNumber Number.text
  dsimp only
  rw [List.append_assoc, List.append_assoc]
  refine prefix_append (filter_take_one _ text) (prefix_append (leading_begins _)
    (prefix_append (scanFraction_begins _) ?_))
  rw [← List.drop_drop]
  exact scanExponent_begins _

theorem readNumber_blank (h : Blank blanks) : readNumber (text ++ blanks) = readNumber text := by
  have hsign : ∀ c, Str.isSpace c → ¬ decide (c = '-') := by
    intro c hspace hsign
    cases of_decide_eq_true hsign
    exact absurd hspace (by decide)
  unfold readNumber
  rw [take_one_blank h hsign]
  dsimp only
  rw [List.drop_append_of_le_length (take_one_le _ text)]
  generalize hunsigned : text.drop ((text.take 1).filter fun c => c = '-').length = unsigned
  rw [leading_blank h]
  have hdigits := leading_begins unsigned
  generalize (if unsigned.head? = some '0' then ['0'] else unsigned.takeWhile isDigit) = digits
    at hdigits ⊢
  rw [List.drop_append_of_le_length hdigits.length_le, scanFraction_blank h]
  have hfraction := prefix_append hdigits (scanFraction_begins (unsigned.drop digits.length))
  rw [← List.length_append, List.drop_append_of_le_length hfraction.length_le, scanExponent_blank h]

theorem matchNumber_cuts : Cuts matchNumber := by
  intro text blanks h value last hlast
  unfold matchNumber at hlast ⊢
  rw [readNumber_blank h] at hlast
  dsimp only at hlast ⊢
  by_cases hdigits : (readNumber text).digits = []
  · rw [if_pos hdigits] at hlast
    cases hlast
  · rw [if_neg hdigits] at hlast ⊢
    by_cases hlong : (readNumber text).fraction = [] ∧ (readNumber text).exponent = [] ∧
        (readNumber text).digits.length > 4300
    · rw [if_pos hlong] at hlast
      cases hlast
    · rw [if_neg hlong] at hlast ⊢
      cases hlast
      exact ⟨_, List.drop_append_of_le_length (readNumber_begins text).length_le, rfl⟩

theorem isPrefixOf_blank {name : List Char} (h : Blank blanks)
    (hname : ∀ c ∈ name, ¬ Str.isSpace c) : name.isPrefixOf (text ++ blanks) = name.isPrefixOf text := by
  induction name generalizing text with
  | nil => rfl
  | cons c name ih =>
      obtain ⟨hc, hname⟩ := List.forall_mem_cons.mp hname
      cases text with
      | nil =>
          cases blanks with
          | nil => rfl
          | cons d rest =>
              have hne : (c == d) = false := beq_false_of_ne fun heq => hc (heq ▸ h.head rfl)
              rw [List.nil_append, List.isPrefixOf_cons_cons, hne]
              rfl
      | cons d text =>
          rw [List.cons_append, List.isPrefixOf_cons_cons, List.isPrefixOf_cons_cons, ih hname]

theorem constants_unspaced : ∀ constant ∈ constants, ∀ c ∈ constant.1, ¬ Str.isSpace c := by
  have hall : constants.all fun constant => constant.1.all fun c => !Str.isSpace c := by decide +kernel
  intro constant hconstant c hc
  have hname := List.all_eq_true.mp hall constant hconstant
  simpa using List.all_eq_true.mp hname c hc

theorem scanConstant_cuts : Cuts scanConstant := by
  intro text blanks h value last hlast
  have hfind : (constants.find? fun constant => constant.1.isPrefixOf (text ++ blanks)) =
      constants.find? fun constant => constant.1.isPrefixOf text :=
    List.find?_congr fun constant hmem => isPrefixOf_blank h (constants_unspaced constant hmem)
  unfold scanConstant at hlast ⊢
  rw [hfind] at hlast
  cases hconstant : constants.find? fun constant => constant.1.isPrefixOf text with
  | none =>
      rw [hconstant] at hlast
      exact matchNumber_cuts text blanks h value last hlast
  | some constant =>
      rw [hconstant] at hlast
      cases hlast
      have hmatch : constant.1.isPrefixOf text = true := by
        have hsome := List.find?_some hconstant
        exact hsome
      exact ⟨_, List.drop_append_of_le_length ( List.isPrefixOf_iff_prefix.mp hmatch).length_le, rfl⟩

-- The last of the values, and one that is not the last.
theorem scanSeparated_last {α : Type} {item : Scanner α} {close : Char} {value : α}
    {rest rest' : List Char} (hvalue : item.run text = .ok (value, rest))
    (hspace : rest.dropWhile isWhitespace = close :: rest') :
    scanSeparated item close text = .ok ([value], rest') := by
  rw [scanSeparated]
  split
  · rename_i heq
    rw [hvalue] at heq
    cases heq
  · rename_i heq
    rw [hvalue] at heq
    cases heq
    split
    · rename_i heq
      rw [hspace] at heq
      cases heq
    · rename_i heq
      rw [hspace] at heq
      cases heq
      exact if_pos rfl

theorem scanSeparated_more {α : Type} {item : Scanner α} {close : Char} {value : α}
    {rest rest' : List Char} (hvalue : item.run text = .ok (value, rest))
    (hspace : rest.dropWhile isWhitespace = ',' :: rest') (hclose : ¬ ',' = close) :
    scanSeparated item close text = (do
      let (values, last) ← scanSeparated item close (rest'.dropWhile isWhitespace)
      return (value :: values, last)) := by
  rw [scanSeparated]
  split
  · rename_i heq
    rw [hvalue] at heq
    cases heq
  · rename_i heq
    rw [hvalue] at heq
    cases heq
    split
    · rename_i heq
      rw [hspace] at heq
      cases heq
    · rename_i heq
      rw [hspace] at heq
      cases heq
      rw [if_neg hclose, if_pos rfl]

theorem scanSeparated_cuts {α : Type} {item : Scanner α} {close : Char} (hitem : Cuts item.run)
    (hclose : ¬ Str.isSpace close) : Cuts (scanSeparated item close) := by
  intro text blanks h values last hlast
  generalize hwhole : text ++ blanks = whole at hlast
  fun_induction scanSeparated item close whole generalizing text values last blanks with
  | case1 => cases hlast
  | case2 => cases hlast
  | case3 whole value rest hvalue rest' hspace =>
      cases hlast
      subst hwhole
      obtain ⟨rest, rfl, hshort⟩ := hitem _ _ h _ _ hvalue
      obtain ⟨last', hspaced, rfl⟩ := spaced_eq_cons h hclose hspace
      exact ⟨last', rfl, scanSeparated_last hshort hspaced⟩
  | case4 whole value rest hvalue rest' hspace hne ih =>
      subst hwhole
      obtain ⟨rest, rfl, hshort⟩ := hitem _ _ h _ _ hvalue
      obtain ⟨later, hspaced, rfl⟩ := spaced_eq_cons h (by decide) hspace
      cases hvalues : scanSeparated item close ((later ++ blanks).dropWhile isWhitespace) with
      | error e =>
          rw [hvalues] at hlast
          cases hlast
      | ok scanned =>
          rw [hvalues] at hlast
          cases hlast
          obtain hsplit | ⟨-, hsplit⟩ := dropWhile_blank (p := isWhitespace) later blanks
          · obtain ⟨last', hlast', hvalues'⟩ := ih _ _ h _ _ hsplit.symm hvalues
            refine ⟨last', hlast', ?_⟩
            rw [scanSeparated_more hshort hspaced hne, hvalues']
            rfl
          · obtain ⟨last', -, hempty⟩ := ih [] _ (h.of_suffix (List.dropWhile_suffix _)) _ _
              hsplit.symm hvalues
            exact absurd (scanSeparated_shrinks item close _ _ _ hempty).length (Nat.not_lt_zero _)
  | case5 => cases hlast

theorem scanEnclosed_cuts {α : Type} {item : Scanner α} {close : Char} (hitem : Cuts item.run)
    (hclose : ¬ Str.isSpace close) : Cuts (scanEnclosed item close) := by
  intro text blanks h values last hlast
  have hseparated := scanSeparated_cuts hitem hclose
  unfold scanEnclosed at hlast
  cases hspace : (text ++ blanks).dropWhile isWhitespace with
  | nil =>
      rw [hspace] at hlast
      exact absurd (scanSeparated_shrinks item close _ _ _ hlast).length (Nat.not_lt_zero _)
  | cons c rest =>
      rw [hspace] at hlast
      dsimp only at hlast
      by_cases hc : c = close
      · rw [if_pos hc] at hlast
        cases hlast
        obtain ⟨rest, hspaced, rfl⟩ := spaced_eq_cons h hclose (hc ▸ hspace)
        refine ⟨rest, rfl, ?_⟩
        unfold scanEnclosed
        rw [hspaced]
        exact if_pos rfl
      · rw [if_neg hc, ← hspace] at hlast
        obtain ⟨last', hlast', hshort⟩ :=
          hseparated.spaced (scanSeparated_shrinks item close) h hlast
        refine ⟨last', hlast', ?_⟩
        unfold scanEnclosed
        cases hspaced : text.dropWhile isWhitespace with
        | nil =>
            rw [hspaced] at hshort
            exact hshort
        | cons d rest' =>
            rw [hspaced] at hshort
            obtain hsplit | ⟨hnil, -⟩ := dropWhile_blank (p := isWhitespace) text blanks
            · rw [hspace, hspaced, List.cons_append, List.cons.injEq] at hsplit
              exact (if_neg (hsplit.1 ▸ hc)).trans hshort
            · rw [hspaced] at hnil
              cases hnil

theorem scanMember_cuts {item : Scanner Json} (hitem : Cuts item.run) : Cuts (scanMember item) := by
  intro text blanks h member last hlast
  generalize hwhole : text ++ blanks = whole at hlast
  unfold scanMember at hlast
  split at hlast
  · obtain ⟨text, rfl, rfl⟩ := append_eq_cons h (by decide) hwhole
    cases hname : scanstring (text ++ blanks) with
    | error e =>
        rw [hname] at hlast
        cases hlast
    | ok named =>
        obtain ⟨name, named⟩ := named
        obtain ⟨named, rfl, hnamed⟩ := scanstring_cuts text blanks h _ _ hname
        rw [hname] at hlast
        simp only [bind, Except.bind] at hlast
        split at hlast
        · rename_i hcolon
          obtain ⟨colon, hspaced, rfl⟩ := spaced_eq_cons h (by decide) hcolon
          cases hvalue : item.run ((colon ++ blanks).dropWhile isWhitespace) with
          | error e =>
              rw [hvalue] at hlast
              cases hlast
          | ok scanned =>
              rw [hvalue] at hlast
              cases hlast
              obtain ⟨rest, hrest, hshort⟩ := hitem.spaced item.shrinks h hvalue
              refine ⟨rest, hrest, ?_⟩
              simp only [scanMember, hnamed, bind, Except.bind, hspaced, hshort]
              rfl
        · cases hlast
  · cases hlast

theorem scanValue_cuts {deeper : Option (Scanner Json)} (hdeeper : ∀ item ∈ deeper, Cuts item.run) :
    Cuts (scanValue deeper) := by
  intro text blanks h value last hlast
  generalize hwhole : text ++ blanks = whole at hlast
  unfold scanValue at hlast
  split at hlast
  · obtain ⟨text, rfl, rfl⟩ := append_eq_cons h (by decide) hwhole
    cases hstring : scanstring (text ++ blanks) with
    | error e =>
        rw [hstring] at hlast
        cases hlast
    | ok scanned =>
        rw [hstring] at hlast
        cases hlast
        obtain ⟨rest, hrest, hshort⟩ := scanstring_cuts text blanks h _ _ hstring
        refine ⟨rest, hrest, ?_⟩
        simp only [scanValue, hshort]
        rfl
  · obtain ⟨text, rfl, rfl⟩ := append_eq_cons h (by decide) hwhole
    cases deeper with
    | none => cases hlast
    | some item =>
        have hitems := scanEnclosed_cuts (hdeeper item rfl) (by decide : ¬ Str.isSpace ']')
        dsimp only at hlast
        cases hscan : scanEnclosed item ']' (text ++ blanks) with
        | error e =>
            rw [hscan] at hlast
            cases hlast
        | ok scanned =>
            rw [hscan] at hlast
            cases hlast
            obtain ⟨rest, hrest, hshort⟩ := hitems text blanks h _ _ hscan
            refine ⟨rest, hrest, ?_⟩
            simp only [scanValue, hshort]
            rfl
  · obtain ⟨text, rfl, rfl⟩ := append_eq_cons h (by decide) hwhole
    cases deeper with
    | none => cases hlast
    | some item =>
        have hmember : Cuts (memberScanner item).run := scanMember_cuts (hdeeper item rfl)
        have hmembers := scanEnclosed_cuts hmember (by decide : ¬ Str.isSpace '\x7d')
        dsimp only at hlast
        cases hscan : scanEnclosed (memberScanner item) '\x7d' (text ++ blanks) with
        | error e =>
            rw [hscan] at hlast
            cases hlast
        | ok scanned =>
            rw [hscan] at hlast
            cases hlast
            obtain ⟨rest, hrest, hshort⟩ := hmembers text blanks h _ _ hscan
            refine ⟨rest, hrest, ?_⟩
            simp only [scanValue, hshort]
            rfl
  · rename_i hstring harray hobject
    subst hwhole
    obtain ⟨rest, hrest, hshort⟩ := scanConstant_cuts text blanks h value last hlast
    refine ⟨rest, hrest, ?_⟩
    unfold scanValue
    split
    · exact absurd rfl (hstring _)
    · exact absurd rfl (harray _)
    · exact absurd rfl (hobject _)
    · exact hshort

theorem scanner_cuts (depth : Nat) : Cuts (scanner depth).run := by
  induction depth with
  | zero => exact @scanValue_cuts none nofun
  | succ depth ih =>
      exact @scanValue_cuts (some (scanner depth)) fun item hitem => Option.some.inj hitem ▸ ih

theorem matchNumber_not_object {value : Json} {rest : List Char}
    (h : matchNumber text = .ok (value, rest)) (payload : List (String × Json)) :
    value ≠ .object payload := by
  unfold matchNumber at h
  dsimp only at h
  split at h
  · cases h
  · split at h
    · cases h
    · cases h
      exact nofun

theorem scanValue_object {deeper : Option (Scanner Json)} {payload : List (String × Json)}
    {rest : List Char} (h : scanValue deeper text = .ok (.object payload, rest)) :
    text.head? = some '\x7b' := by
  unfold scanValue at h
  split at h
  · rename_i rest
    cases hstring : scanstring rest with
    | error e =>
        rw [hstring] at h
        cases h
    | ok scanned =>
        rw [hstring] at h
        cases h
  · rename_i rest
    cases deeper with
    | none => cases h
    | some item =>
        dsimp only at h
        cases hscan : scanEnclosed item ']' rest with
        | error e =>
            rw [hscan] at h
            cases h
        | ok scanned =>
            rw [hscan] at h
            cases h
  · rfl
  · unfold scanConstant at h
    cases hfind : constants.find? fun constant => constant.1.isPrefixOf text with
    | none =>
        rw [hfind] at h
        exact absurd rfl (matchNumber_not_object h payload)
    | some constant =>
        have hmem := List.mem_of_find?_eq_some hfind
        rw [hfind] at h
        obtain ⟨hvalue, -⟩ := Prod.mk.inj (Except.ok.inj h)
        obtain ⟨name, value⟩ := constant
        dsimp only at hvalue
        subst hvalue
        simp [constants] at hmem

theorem scanner_object {depth : Nat} {payload : List (String × Json)} {rest : List Char}
    (h : (scanner depth).run text = .ok (.object payload, rest)) : text.head? = some '\x7b' := by
  cases depth with
  | zero => exact @scanValue_object text none payload rest h
  | succ depth => exact @scanValue_object text (some (scanner depth)) payload rest h

theorem dropWhile_isSpace {tail : List Char} (h : text.dropWhile isWhitespace = '\x7b' :: tail) :
    text.dropWhile Str.isSpace = '\x7b' :: tail := by
  have hspace : ∀ c ∈ text.takeWhile isWhitespace, Str.isSpace c :=
    fun c hc => isSpace_of_isWhitespace (List.mem_takeWhile_imp hc)
  rw [← List.takeWhile_append_dropWhile (p := isWhitespace) (l := text),
    List.dropWhile_append_of_pos hspace, h]
  rfl

-- The text of an object, less the blanks around it.
theorem loads_strip {limit : Nat} {payload : List (String × Json)}
    (h : loads limit text = .ok (.object payload)) :
    ∃ core, Str.strip Str.isSpace text = '\x7b' :: core ∧
      loads limit ('\x7b' :: core) = .ok (.object payload) := by
  unfold loads at h
  by_cases hmark : text.head? = some (Char.ofNat 0xFEFF)
  · rw [if_pos hmark] at h
    cases h
  · rw [if_neg hmark] at h
    cases hrun : (scanner limit).run (text.dropWhile isWhitespace) with
    | error e =>
        rw [hrun] at h
        cases h
    | ok scanned =>
        obtain ⟨value, rest⟩ := scanned
        rw [hrun] at h
        simp only [bind, Except.bind] at h
        by_cases hrest : rest.dropWhile isWhitespace = []
        · rw [if_pos hrest] at h
          cases h
          obtain ⟨tail, htail⟩ := List.head?_eq_some_iff.mp (scanner_object hrun)
          have hparts := List.rdropWhile_append_rtakeWhile (p := Str.isSpace) (l := '\x7b' :: tail)
          have hblank : Blank (('\x7b' :: tail).rtakeWhile Str.isSpace) :=
            fun c hc => List.mem_rtakeWhile_imp hc
          obtain ⟨core, hcore, -⟩ := append_eq_cons hblank (by decide) hparts
          refine ⟨core, ?_, ?_⟩
          · unfold Str.strip
            rw [dropWhile_isSpace htail, hcore]
          · rw [htail, ← hparts, hcore] at hrun
            obtain ⟨rest, rfl, hshort⟩ := scanner_cuts limit _ _ hblank _ _ hrun
            have hnil : rest.dropWhile isWhitespace = [] := by
              obtain hsplit | ⟨hnil, -⟩ := dropWhile_blank (p := isWhitespace) rest
                (('\x7b' :: tail).rtakeWhile Str.isSpace)
              · rw [hsplit] at hrest
                exact (List.append_eq_nil_iff.mp hrest).1
              · exact hnil
            unfold loads
            rw [if_neg (by simp), List.dropWhile_cons_of_neg (by decide), hshort]
            simp only [bind, Except.bind]
            rw [if_pos hnil]
            rfl
        · rw [if_neg hrest] at h
          cases h

-- The parsers remove no more of such a text.
theorem loads_unfenced {limit : Nat} {text : String} {payload : List (String × Json)}
    (h : loads limit text.toList = .ok (.object payload)) :
    loads limit (unfenced text) = .ok (.object payload) := by
  obtain ⟨core, hstrip, hcore⟩ := loads_strip h
  unfold unfenced
  rw [hstrip]
  have hfence : ¬ "```".toList.isPrefixOf ('\x7b' :: core) := nofun
  dsimp only
  rw [if_neg hfence]
  exact hcore

end

end AgentBoilerplate.Agent.JsonDecoder
