import AgentBoilerplate.Agent.JsonBlanks

namespace AgentBoilerplate.Agent.JsonWriter

open Python JsonDecoder

-- The text of a value as `serde_json::to_string` writes it, and `json.dumps` with compact
-- separators that may leave what is beyond ASCII as it is: no blanks, and only the
-- escapes that a string needs.

def shortEscapes : List (Char × Char) :=
  [('"', '"'), ('\\', '\\'), (Char.ofNat 0x8, 'b'), ('\t', 't'), ('\n', 'n'), (Char.ofNat 0xC, 'f'),
    ('\r', 'r')]

def escape (c : Char) : List Char :=
  match shortEscapes.lookup c with
  | some letter => ['\\', letter]
  | none => if c.val ≤ 0x1F then '\\' :: 'u' :: Str.hex false 4 c.toNat else [c]

def writeString (text : String) : List Char := '"' :: (text.toList.flatMap escape ++ ['"'])

mutual

def write : Json → List Char
  | .null => "null".toList
  | .bool true => "true".toList
  | .bool false => "false".toList
  | .number text => text.toList
  | .string text => writeString text
  | .array items => '[' :: ([','].intercalate (writeItems items) ++ [']'])
  | .object fields => '\x7b' :: ([','].intercalate (writeFields fields) ++ ['\x7d'])

def writeItems : List Json → List (List Char)
  | [] => []
  | item :: items => write item :: writeItems items

def writeFields : List (String × Json) → List (List Char)
  | [] => []
  | (name, value) :: fields => (writeString name ++ ':' :: write value) :: writeFields fields

end

-- A number's text is one number, and the decoder takes it.
def IsNumber (text : List Char) : Prop :=
  (readNumber text).text = text ∧ (readNumber text).digits ≠ [] ∧
    ¬ ((readNumber text).fraction = [] ∧ (readNumber text).exponent = [] ∧
      (readNumber text).digits.length > 4300)

instance (text : List Char) : Decidable (IsNumber text) :=
  inferInstanceAs (Decidable (_ ∧ _ ∧ ¬ _))

-- A value that nests arrays and objects no deeper than that.
def Fits : Nat → Json → Prop
  | _, .null => True
  | _, .bool _ => True
  | _, .string _ => True
  | _, .number text => IsNumber text.toList
  | 0, .array _ => False
  | 0, .object _ => False
  | depth + 1, .array items => ∀ item ∈ items, Fits depth item
  | depth + 1, .object fields => ∀ field ∈ fields, Fits depth field.2

section Depth

variable {depth : Nat}

theorem fits_array {items : List Json} (h : ∀ item ∈ items, Fits depth item) :
    Fits (depth + 1) (.array items) := h

theorem fits_object {fields : List (String × Json)} (h : ∀ field ∈ fields, Fits depth field.2) :
    Fits (depth + 1) (.object fields) := h

theorem fits_string (depth : Nat) (text : String) : Fits depth (.string text) := by
  cases depth <;> trivial

theorem fits_bool (depth : Nat) (value : Bool) : Fits depth (.bool value) := by
  cases depth <;> trivial

theorem Fits.succ {value : Json} (h : Fits depth value) : Fits (depth + 1) value := by
  induction depth generalizing value with
  | zero => cases value <;> first
    | exact h
    | exact h.elim
  | succ depth ih => cases value with
    | array items => exact fits_array fun item hitem => ih (h item hitem)
    | object fields => exact fits_object fun field hfield => ih (h field hfield)
    | _ => exact h

theorem Fits.mono {depth' : Nat} {value : Json} (h : Fits depth value) (hle : depth ≤ depth') :
    Fits depth' value := by
  induction hle with
  | refl => exact h
  | step _ ih => exact ih.succ

end Depth

section Strings

variable {rest : List Char}

theorem scanstring_escaped {letter c : Char} (hu : letter ≠ 'u') (hc : unescape letter = some c)
    (text : List Char) :
    scanstring ('\\' :: letter :: text) = (do
      let (chars, last) ← scanstring text
      return (c :: chars, last)) := by
  have hscan : scanEscape (letter :: text) = .ok (c, 1) := by
    rw [scanEscape.eq_3 _ _ hu, hc]
  rw [scanstring, hscan]
  rfl

theorem codeUnit_hex : ∀ n : Fin 32, codeUnit (Str.hex false 4 n) = some n.val := by decide

theorem scanstring_control {c : Char} (hc : c.val ≤ 0x1F) (text : List Char) (htext : text ≠ []) :
    scanstring ('\\' :: 'u' :: (Str.hex false 4 c.toNat ++ text)) = (do
      let (chars, last) ← scanstring text
      return (c :: chars, last)) := by
  have hsmall : c.toNat < 32 := Nat.lt_succ_of_le (UInt32.le_iff_toNat_le.mp hc)
  have hunit : codeUnit (Str.hex false 4 c.toNat) = some c.toNat := codeUnit_hex ⟨c.toNat, hsmall⟩
  have hlength : (Str.hex false 4 c.toNat).length = 4 := rfl
  have htake : (Str.hex false 4 c.toNat ++ text).take 4 = Str.hex false 4 c.toNat :=
    List.take_left' hlength
  have hlong : ¬ (Str.hex false 4 c.toNat ++ text).length ≤ 4 := by
    have hpos := List.length_pos_of_ne_nil htext
    rw [List.length_append, hlength]
    omega
  have hlow : isHighSurrogate c.toNat = false ∧ isLowSurrogate c.toNat = false :=
    ⟨decide_eq_false fun h => by omega, decide_eq_false fun h => by omega⟩
  have hscan : scanEscape ('u' :: (Str.hex false 4 c.toNat ++ text)) = .ok (c, 5) := by
    rw [scanEscape]
    simp only [htake, hunit, hlong, hlow, if_false]
    simp [charOfUnit, hlow, Char.ofNat_toNat]
  rw [scanstring, hscan]
  rfl

theorem shortEscapes_unescape :
    ∀ pair ∈ shortEscapes, pair.2 ≠ 'u' ∧ unescape pair.2 = some pair.1 := by decide

-- A character is read back from its escape.
theorem scanstring_escape (c : Char) (text : List Char) (htext : text ≠ []) :
    scanstring (escape c ++ text) = (do
      let (chars, last) ← scanstring text
      return (c :: chars, last)) := by
  unfold escape
  cases hshort : shortEscapes.lookup c with
  | some letter =>
      obtain ⟨before, after, hsplit, -⟩ := List.lookup_eq_some_iff.mp hshort
      have hmem : (c, letter) ∈ shortEscapes := by
        rw [hsplit]
        exact List.mem_append_right _ List.mem_cons_self
      obtain ⟨hu, hc⟩ := shortEscapes_unescape _ hmem
      exact scanstring_escaped hu hc text
  | none =>
      dsimp only
      by_cases hcontrol : c.val ≤ 0x1F
      · rw [if_pos hcontrol]
        exact scanstring_control hcontrol text htext
      · rw [if_neg hcontrol]
        have hquote : c ≠ '"' := by
          rintro rfl
          exact absurd hshort (by decide)
        have hbackslash : c ≠ '\\' := by
          rintro rfl
          exact absurd hshort (by decide)
        rw [List.cons_append, List.nil_append, scanstring.eq_4 _ _ hquote hbackslash,
          if_neg hcontrol]

theorem scanstring_flatMap (chars : List Char) :
    scanstring (chars.flatMap escape ++ '"' :: rest) = .ok (chars, rest) := by
  induction chars with
  | nil => rw [List.flatMap_nil, List.nil_append, scanstring]
  | cons c chars ih =>
      rw [List.flatMap_cons, List.append_assoc,
        scanstring_escape c _ (List.append_ne_nil_of_right_ne_nil _ (List.cons_ne_nil _ _)), ih]
      rfl

end Strings

-- What may stand after a value.
def Ends (rest : List Char) : Prop := ∀ c ∈ rest.head?, c = ',' ∨ c = ']' ∨ c = '\x7d'

section Numbers

variable {text rest : List Char}

theorem Ends.notMem (h : Ends rest) {p : Char → Bool} (hcomma : p ',' = false)
    (hbracket : p ']' = false) (hbrace : p '\x7d' = false) : ∀ c ∈ rest.head?, p c = false := by
  intro c hc
  obtain rfl | rfl | rfl := h c hc
  · exact hcomma
  · exact hbracket
  · exact hbrace

theorem takeWhile_ends {p : Char → Bool} (h : ∀ c ∈ rest.head?, p c = false) :
    (text ++ rest).takeWhile p = text.takeWhile p := by
  induction text with
  | nil =>
      cases rest with
      | nil => rfl
      | cons c rest => exact List.takeWhile_cons_of_neg (Bool.not_eq_true _ ▸ h c rfl)
  | cons c text ih =>
      rw [List.cons_append, List.takeWhile_cons, List.takeWhile_cons, ih]

theorem take_one_ends {p : Char → Bool} (h : ∀ c ∈ rest.head?, p c = false) :
    ((text ++ rest).take 1).filter p = (text.take 1).filter p := by
  cases text with
  | nil =>
      cases rest with
      | nil => rfl
      | cons c rest => exact List.filter_cons_of_neg (Bool.not_eq_true _ ▸ h c rfl)
  | cons c text => rfl

theorem scanFraction_ends (h : Ends rest) : scanFraction (text ++ rest) = scanFraction text := by
  cases text with
  | nil =>
      cases rest with
      | nil => rfl
      | cons c rest =>
          have hc : c ≠ '.' := by
            rintro rfl
            exact absurd (h '.' rfl) (by decide)
          exact scanFraction.eq_2 _ fun rest' heq => hc (List.cons.inj heq).1
  | cons c text =>
      by_cases hc : c = '.'
      · subst hc
        rw [List.cons_append, scanFraction, scanFraction,
          takeWhile_ends (h.notMem (by decide) (by decide) (by decide))]
      · rw [List.cons_append, scanFraction.eq_2 _ fun rest heq => hc (List.cons.inj heq).1,
          scanFraction.eq_2 _ fun rest heq => hc (List.cons.inj heq).1]

theorem scanExponent_ends (h : Ends rest) : scanExponent (text ++ rest) = scanExponent text := by
  cases text with
  | nil =>
      cases rest with
      | nil => rfl
      | cons c rest =>
          have hc : ¬ (c = 'e' ∨ c = 'E') := by
            rintro (rfl | rfl) <;> exact absurd (h _ rfl) (by decide)
          exact if_neg hc
  | cons c text =>
      rw [List.cons_append, scanExponent, scanExponent,
        take_one_ends (h.notMem (by decide) (by decide) (by decide))]
      dsimp only
      rw [List.drop_append_of_le_length (take_one_le _ text),
        takeWhile_ends (h.notMem (by decide) (by decide) (by decide))]

theorem leading_ends (h : Ends rest) :
    (if (text ++ rest).head? = some '0' then ['0'] else (text ++ rest).takeWhile isDigit) =
      if text.head? = some '0' then ['0'] else text.takeWhile isDigit := by
  rw [takeWhile_ends (h.notMem (by decide) (by decide) (by decide))]
  cases text with
  | nil =>
      have hzero : rest.head? ≠ some '0' := fun hhead => absurd (h '0' hhead) (by decide)
      rw [List.nil_append, if_neg hzero, if_neg (by simp)]
  | cons c text => rfl

theorem readNumber_ends (h : Ends rest) : readNumber (text ++ rest) = readNumber text := by
  have hsign : ((text ++ rest).take 1).filter (fun c => c = '-') =
      (text.take 1).filter fun c => c = '-' :=
    take_one_ends (h.notMem (by decide) (by decide) (by decide))
  unfold readNumber
  rw [hsign]
  dsimp only
  rw [List.drop_append_of_le_length (take_one_le _ text)]
  generalize text.drop ((text.take 1).filter fun c => c = '-').length = unsigned
  rw [leading_ends h]
  have hdigits := leading_begins unsigned
  generalize (if unsigned.head? = some '0' then ['0'] else unsigned.takeWhile isDigit) = digits
    at hdigits ⊢
  rw [List.drop_append_of_le_length hdigits.length_le, scanFraction_ends h]
  have hfraction := prefix_append hdigits (scanFraction_begins (unsigned.drop digits.length))
  rw [← List.length_append, List.drop_append_of_le_length hfraction.length_le, scanExponent_ends h]

theorem leading_digit {unsigned : List Char}
    (h : (if unsigned.head? = some '0' then ['0'] else unsigned.takeWhile isDigit) ≠ []) :
    ∃ c tail, unsigned = c :: tail ∧ isDigit c = true := by
  cases unsigned with
  | nil => exact absurd rfl h
  | cons c tail =>
      refine ⟨c, tail, rfl, ?_⟩
      by_contra hc
      rw [if_neg, List.takeWhile_cons_of_neg hc] at h
      · exact h rfl
      · intro hzero
        cases hzero
        exact hc rfl

-- A number begins with a digit, after a sign if it has one.
theorem IsNumber.begins (h : IsNumber text) :
    ∃ c tail, isDigit c = true ∧ (text = c :: tail ∨ text = '-' :: c :: tail) := by
  obtain ⟨-, hdigits, -⟩ := h
  obtain ⟨c, tail, hunsigned, hc⟩ := leading_digit hdigits
  refine ⟨c, tail, hc, ?_⟩
  cases text with
  | nil => cases hunsigned
  | cons first text =>
      by_cases hsign : first = '-'
      · subst hsign
        exact Or.inr (congrArg (List.cons '-') hunsigned)
      · have hnone : ((first :: text).take 1).filter (fun c => c = '-') = [] :=
          List.filter_cons_of_neg (by simpa using hsign)
        rw [hnone] at hunsigned
        exact Or.inl hunsigned

theorem constants_undigited :
    ∀ constant ∈ constants, 2 ≤ constant.1.length ∧ ∀ c ∈ constant.1.take 2, isDigit c = false := by
  have hall : ∀ constant ∈ constants, 2 ≤ constant.1.length ∧
      (constant.1.take 2).all (fun c => isDigit c = false) = true := by
    decide
  intro constant hconstant
  obtain ⟨hlong, hnone⟩ := hall constant hconstant
  exact ⟨hlong, fun c hc => of_decide_eq_true (List.all_eq_true.mp hnone c hc)⟩

theorem find_constant (h : IsNumber text) :
    (constants.find? fun constant => constant.1.isPrefixOf (text ++ rest)) = none := by
  refine List.find?_eq_none.mpr fun constant hconstant hprefix => ?_
  obtain ⟨hlong, hnone⟩ := constants_undigited constant hconstant
  obtain ⟨more, hmore⟩ := List.isPrefixOf_iff_prefix.mp hprefix
  obtain ⟨c, tail, hc, htext⟩ := h.begins
  match hname : constant.1, hlong with
  | a :: b :: name, _ =>
      rw [hname] at hmore hnone
      have ha := hnone a List.mem_cons_self
      have hb := hnone b (List.mem_cons_of_mem a List.mem_cons_self)
      obtain rfl | rfl := htext
      · rw [← (List.cons.inj hmore).1, ha] at hc
        cases hc
      · rw [← (List.cons.inj (List.cons.inj hmore).2).1, hb] at hc
        cases hc

theorem scanConstant_number (h : IsNumber text) (hrest : Ends rest) :
    scanConstant (text ++ rest) = .ok (.number (String.ofList text), rest) := by
  unfold scanConstant
  rw [find_constant h]
  dsimp only
  obtain ⟨htext, hdigits, hshort⟩ := h
  unfold matchNumber
  dsimp only
  rw [readNumber_ends hrest, if_neg hdigits, if_neg hshort, htext, List.drop_left]

end Numbers

-- What a value begins with.
structure Opens (c : Char) : Prop where
  ascii : c.val < 0x80
  visible : JsonDecoder.isWhitespace c = false
  bracket : c ≠ ']'
  brace : c ≠ '\x7d'

-- Where a value's text stands before what may follow it, the scanner reads that value.
structure Reads {α : Type} (item : Scanner α) (text : List Char) (value : α) : Prop where
  begins : ∃ c tail, text = c :: tail ∧ Opens c
  run : ∀ rest, Ends rest → item.run (text ++ rest) = .ok (value, rest)

section Values

variable {α : Type} {item : Scanner α} {text rest : List Char} {value : α} {close : Char}

theorem Reads.dropWhile (h : Reads item text value) (rest : List Char) :
    (text ++ rest).dropWhile JsonDecoder.isWhitespace = text ++ rest := by
  obtain ⟨c, tail, rfl, hc⟩ := h.begins
  exact List.dropWhile_cons_of_neg (Bool.not_eq_true _ ▸ hc.visible)

theorem ends_close (hclose : close = ']' ∨ close = '\x7d') (rest : List Char) :
    Ends (close :: rest) := by
  rintro c ⟨⟩
  exact Or.inr hclose

theorem dropWhile_close (hclose : close = ']' ∨ close = '\x7d') (rest : List Char) :
    (close :: rest).dropWhile JsonDecoder.isWhitespace = close :: rest := by
  obtain rfl | rfl := hclose <;> rfl

theorem scanSeparated_reads (hclose : close = ']' ∨ close = '\x7d') {texts : List (List Char)}
    {values : List α} (h : List.Forall₂ (Reads item) texts values) (hne : texts ≠ []) :
    scanSeparated item close ([','].intercalate texts ++ close :: rest) = .ok (values, rest) := by
  induction h with
  | nil => exact absurd rfl hne
  | @cons text value texts values hitem htexts ih =>
      cases htexts with
      | nil =>
          rw [List.intercalate_singleton]
          exact scanSeparated_last (hitem.run _ (ends_close hclose rest))
            (dropWhile_close hclose rest)
      | @cons text' value' texts values hitem' htexts =>
          have hcomma : ¬ ',' = close := by
            obtain rfl | rfl := hclose <;> decide
          have hends : ∀ more, Ends (',' :: more) := by
            rintro more c ⟨⟩
            exact Or.inl rfl
          have hsplit : [','].intercalate (text :: text' :: texts) ++ close :: rest =
              text ++ ',' :: ([','].intercalate (text' :: texts) ++ close :: rest) := by
            rw [List.intercalate_cons_cons]
            simp
          have hspace : ([','].intercalate (text' :: texts) ++ close :: rest).dropWhile
              JsonDecoder.isWhitespace = [','].intercalate (text' :: texts) ++ close :: rest := by
            cases texts with
            | nil =>
                rw [List.intercalate_singleton]
                exact hitem'.dropWhile _
            | cons text'' texts =>
                rw [List.intercalate_cons_cons, List.append_assoc, List.append_assoc]
                exact hitem'.dropWhile _
          rw [hsplit, scanSeparated_more (hitem.run _ (hends _)) rfl hcomma, hspace,
            ih (List.cons_ne_nil _ _)]
          rfl

theorem scanEnclosed_reads (hclose : close = ']' ∨ close = '\x7d') {texts : List (List Char)}
    {values : List α} (h : List.Forall₂ (Reads item) texts values) :
    scanEnclosed item close ([','].intercalate texts ++ close :: rest) = .ok (values, rest) := by
  unfold scanEnclosed
  cases h with
  | nil =>
      rw [List.intercalate_nil, List.nil_append, dropWhile_close hclose]
      exact if_pos rfl
  | @cons text value texts values hitem htexts =>
      have hall : scanSeparated item close
          ([','].intercalate (text :: texts) ++ close :: rest) = .ok (value :: values, rest) :=
        scanSeparated_reads hclose (List.Forall₂.cons hitem htexts) (List.cons_ne_nil _ _)
      obtain ⟨c, tail, htext, hc⟩ := hitem.begins
      have hne : c ≠ close := by
        rintro rfl
        exact hclose.elim hc.bracket hc.brace
      rw [htext, List.intercalate_cons_cons_left, List.cons_append] at hall ⊢
      rw [List.dropWhile_cons_of_neg (Bool.not_eq_true _ ▸ hc.visible)]
      dsimp only
      rw [if_neg hne]
      exact hall

theorem writeString_append (text : String) (rest : List Char) :
    writeString text ++ rest = '"' :: (text.toList.flatMap escape ++ '"' :: rest) := by
  unfold writeString
  rw [List.cons_append, List.append_assoc]
  rfl

theorem memberScanner_reads {item : Scanner Json} {value : Json} (h : Reads item text value)
    (name : String) :
    Reads (memberScanner item) (writeString name ++ ':' :: text) (name, value) := by
  refine ⟨⟨'"', _, rfl, by decide, by decide, by decide, by decide⟩, fun rest hrest => ?_⟩
  have hmember : scanMember item (writeString name ++ (':' :: (text ++ rest))) =
      (item.run ((text ++ rest).dropWhile JsonDecoder.isWhitespace) >>= fun read =>
        .ok ((String.ofList name.toList, read.1), read.2)) := by
    rw [writeString_append, scanMember.eq_1, scanstring_flatMap]
    rfl
  rw [h.dropWhile, h.run rest hrest, String.ofList_toList] at hmember
  rw [List.append_assoc]
  exact hmember

end Values

theorem writeItems_eq (items : List Json) : writeItems items = items.map write := by
  induction items with
  | nil => rw [writeItems, List.map_nil]
  | cons item items ih => rw [writeItems, List.map_cons, ih]

theorem writeFields_eq (fields : List (String × Json)) :
    writeFields fields = fields.map fun field => writeString field.1 ++ ':' :: write field.2 := by
  induction fields with
  | nil => rw [writeFields, List.map_nil]
  | cons field fields ih => rw [writeFields, List.map_cons, ih]

section Readings

variable {deeper : Option (Scanner Json)}

theorem scanValue_string (text : String) (rest : List Char) :
    scanValue deeper (writeString text ++ rest) = .ok (.string text, rest) := by
  rw [writeString_append, scanValue.eq_1, scanstring_flatMap]
  change Except.ok (Json.string (String.ofList text.toList), rest) = _
  rw [String.ofList_toList]

theorem scanValue_number {text rest : List Char} (h : IsNumber text) (hrest : Ends rest) :
    scanValue deeper (text ++ rest) = .ok (.number (String.ofList text), rest) := by
  have hbegins : ∀ c tail, text ++ rest = c :: tail → c = '-' ∨ isDigit c = true := by
    obtain ⟨c, tail, hc, rfl | rfl⟩ := h.begins
    · rintro c' tail' heq
      exact Or.inr ((List.cons.inj heq).1 ▸ hc)
    · rintro c' tail' heq
      exact Or.inl (List.cons.inj heq).1.symm
  rw [scanValue.eq_6]
  · exact scanConstant_number h hrest
  all_goals
    intro tail heq
    obtain hc | hc := hbegins _ _ heq <;> exact absurd hc (by decide)

theorem scanValue_constant {value : Json} {name rest : List Char} (hvalue : (name, value) ∈
    [("null".toList, Json.null), ("true".toList, .bool true), ("false".toList, .bool false)]) :
    scanValue deeper (name ++ rest) = .ok (value, rest) := by
  simp only [List.mem_cons, List.not_mem_nil, or_false, Prod.mk.injEq] at hvalue
  obtain ⟨rfl, rfl⟩ | ⟨rfl, rfl⟩ | ⟨rfl, rfl⟩ := hvalue <;> rfl

end Readings

theorem opens_digit {c : Char} (hc : isDigit c = true) : Opens c := by
  have hhigh := UInt32.le_iff_toNat_le.mp (of_decide_eq_true hc).2
  have hnine : ('9' : Char).val.toNat = 57 := rfl
  refine ⟨UInt32.lt_iff_toNat_lt.mpr (Nat.lt_of_le_of_lt (hnine ▸ hhigh) (by decide)), ?_, ?_, ?_⟩
  · by_contra hspace
    exact not_isDigit c (isSpace_of_isWhitespace (Bool.not_eq_false _ ▸ hspace)) hc
  · rintro rfl
    exact absurd hc (by decide)
  · rintro rfl
    exact absurd hc (by decide)

theorem opens_number {text : List Char} (h : IsNumber text) :
    ∃ c tail, text = c :: tail ∧ Opens c := by
  obtain ⟨c, tail, hc, rfl | rfl⟩ := h.begins
  · exact ⟨c, tail, rfl, opens_digit hc⟩
  · exact ⟨'-', c :: tail, rfl, by decide, by decide, by decide, by decide⟩

theorem scanner_zero : (scanner 0).run = scanValue none := rfl

theorem scanner_succ (depth : Nat) :
    (scanner (depth + 1)).run = scanValue (some (scanner depth)) := rfl

theorem scanner_run (depth : Nat) : ∃ deeper, (scanner depth).run = scanValue deeper := by
  cases depth with
  | zero => exact ⟨none, scanner_zero⟩
  | succ depth => exact ⟨some (scanner depth), scanner_succ depth⟩

-- A value that nests nothing.
theorem scanner_flat {depth : Nat} {value : Json} (harray : ∀ items, value ≠ .array items)
    (hobject : ∀ fields, value ≠ .object fields) (h : Fits depth value) :
    Reads (scanner depth) (write value) value := by
  obtain ⟨deeper, hrun⟩ := scanner_run depth
  cases value with
  | null => 
      refine ⟨⟨'n', _, rfl, by decide, by decide, by decide, by decide⟩, fun rest _ => ?_⟩
      rw [hrun]
      exact scanValue_constant (by simp [write])
  | bool value =>
      cases value with
      | true =>
          refine ⟨⟨'t', _, rfl, by decide, by decide, by decide, by decide⟩, fun rest _ => ?_⟩
          rw [hrun]
          exact scanValue_constant (by simp [write])
      | false =>
          refine ⟨⟨'f', _, rfl, by decide, by decide, by decide, by decide⟩, fun rest _ => ?_⟩
          rw [hrun]
          exact scanValue_constant (by simp [write])
  | number text =>
      have hnumber : IsNumber text.toList := by
        cases depth <;> exact h
      refine ⟨opens_number hnumber, fun rest hrest => ?_⟩
      rw [hrun, write, scanValue_number hnumber hrest, String.ofList_toList]
  | string text =>
      refine ⟨⟨'"', _, rfl, by decide, by decide, by decide, by decide⟩, fun rest _ => ?_⟩
      rw [hrun, write]
      exact scanValue_string text rest
  | array items => exact absurd rfl (harray items)
  | object fields => exact absurd rfl (hobject fields)

-- The scanner reads back every value that it may nest.
theorem scanner_write (depth : Nat) {value : Json} (h : Fits depth value) :
    Reads (scanner depth) (write value) value := by
  induction depth generalizing value with
  | zero =>
      cases value with
      | array items => exact h.elim
      | object fields => exact h.elim
      | _ => exact scanner_flat nofun nofun h
  | succ depth ih =>
      cases value with
      | array items =>
          have hitems : List.Forall₂ (Reads (scanner depth)) (items.map write) items := by
            rw [List.forall₂_map_left_iff]
            exact List.forall₂_same.mpr fun item hitem => ih (h item hitem)
          refine ⟨⟨'[', _, rfl, by decide, by decide, by decide, by decide⟩, fun rest _ => ?_⟩
          rw [scanner_succ, write, writeItems_eq, List.cons_append, List.append_assoc,
            scanValue.eq_3, List.singleton_append, scanEnclosed_reads (Or.inl rfl) hitems]
          rfl
      | object fields =>
          have hfields : List.Forall₂ (Reads (memberScanner (scanner depth)))
              (fields.map fun field => writeString field.1 ++ ':' :: write field.2) fields := by
            rw [List.forall₂_map_left_iff]
            exact List.forall₂_same.mpr fun field hfield =>
              memberScanner_reads (ih (h field hfield)) field.1
          refine ⟨⟨'\x7b', _, rfl, by decide, by decide, by decide, by decide⟩, fun rest _ => ?_⟩
          rw [scanner_succ, write, writeFields_eq, List.cons_append, List.append_assoc,
            scanValue.eq_5, List.singleton_append, scanEnclosed_reads (Or.inr rfl) hfields]
          rfl
      | _ => exact scanner_flat nofun nofun h

theorem loads_write {limit : Nat} {value : Json} (h : Fits limit value) :
    loads limit (write value) = .ok value := by
  have hreads := scanner_write limit h
  have hspace := hreads.dropWhile []
  have hrun := hreads.run [] nofun
  rw [List.append_nil] at hspace hrun
  unfold loads
  rw [if_neg, hspace, hrun]
  · rfl
  · obtain ⟨c, tail, hwrite, hc⟩ := hreads.begins
    rw [hwrite]
    rintro ⟨⟩
    exact absurd hc.ascii (by decide)

section Lines

-- A text on one line, without any control character.
def Printable (text : List Char) : Prop := ∀ c ∈ text, 0x1F < c.val

instance (text : List Char) : Decidable (Printable text) := List.decidableBAll _ text

theorem printable_nil : Printable [] := fun _ hc => absurd hc List.not_mem_nil

theorem Printable.append {first second : List Char} (hfirst : Printable first)
    (hsecond : Printable second) : Printable (first ++ second) :=
  fun c hc => (List.mem_append.mp hc).elim (hfirst c) (hsecond c)

theorem Printable.cons {c : Char} {text : List Char} (hc : 0x1F < c.val) (h : Printable text) :
    Printable (c :: text) :=
  List.forall_mem_cons.mpr ⟨hc, h⟩

theorem Printable.intercalate {texts : List (List Char)} (h : ∀ text ∈ texts, Printable text) :
    Printable ([','].intercalate texts) := by
  induction texts with
  | nil => exact printable_nil
  | cons text texts ih =>
      obtain ⟨htext, htexts⟩ := List.forall_mem_cons.mp h
      cases texts with
      | nil =>
          rw [List.intercalate_singleton]
          exact htext
      | cons text' texts =>
          rw [List.intercalate_cons_cons]
          exact (htext.append (.cons (by decide) printable_nil)).append (ih htexts)

theorem printable_digits (text : List Char) : Printable (text.takeWhile isDigit) := by
  intro c hc
  have hall : isDigit c = true := List.mem_takeWhile_imp hc
  have hdigit : '0' ≤ c ∧ c ≤ '9' := of_decide_eq_true hall
  exact Nat.lt_of_lt_of_le (by decide) (UInt32.le_iff_toNat_le.mp hdigit.1)

theorem printable_fraction (text : List Char) : Printable (scanFraction text) := by
  unfold scanFraction
  split
  · dsimp only
    split_ifs
    · exact printable_nil
    · exact .cons (by decide) (printable_digits _)
  · exact printable_nil

theorem printable_exponent (text : List Char) : Printable (scanExponent text) := by
  unfold scanExponent
  split
  · dsimp only
    split_ifs with he
    · exact printable_nil
    · refine .append (.cons ?_ fun c hc => ?_) (printable_digits _)
      · obtain rfl | rfl := he <;> decide
      · obtain rfl | rfl := of_decide_eq_true (List.mem_filter.mp hc).2 <;> decide
    · exact printable_nil
  · exact printable_nil

theorem printable_number {text : List Char} (h : IsNumber text) : Printable text := by
  rw [← h.1]
  unfold readNumber Number.text
  dsimp only
  refine .append (.append (.append ?_ ?_) (printable_fraction _)) (printable_exponent _)
  · intro c hc
    rw [of_decide_eq_true (List.mem_filter.mp hc).2]
    decide
  · split_ifs
    · exact .cons (by decide) printable_nil
    · exact printable_digits _

theorem shortEscapes_printable : ∀ pair ∈ shortEscapes, Printable ['\\', pair.2] := by
  have hall : shortEscapes.all (fun pair => Printable ['\\', pair.2]) = true := by decide
  exact fun pair hpair => of_decide_eq_true (List.all_eq_true.mp hall pair hpair)

theorem hexDigits_printable : ∀ n : Fin 32, Printable (Str.hex false 4 n) := by
  decide

theorem printable_escape (c : Char) : Printable (escape c) := by
  unfold escape
  cases hshort : shortEscapes.lookup c with
  | some letter =>
      obtain ⟨before, after, hsplit, -⟩ := List.lookup_eq_some_iff.mp hshort
      have hmem : (c, letter) ∈ shortEscapes := by
        rw [hsplit]
        exact List.mem_append_right _ List.mem_cons_self
      exact shortEscapes_printable _ hmem
  | none =>
      dsimp only
      by_cases hcontrol : c.val ≤ 0x1F
      · rw [if_pos hcontrol]
        have hsmall : c.toNat < 32 := Nat.lt_succ_of_le (UInt32.le_iff_toNat_le.mp hcontrol)
        exact .cons (by decide) (.cons (by decide) (hexDigits_printable ⟨c.toNat, hsmall⟩))
      · rw [if_neg hcontrol]
        exact .cons (UInt32.not_le.mp hcontrol) printable_nil

theorem printable_writeString (text : String) : Printable (writeString text) := by
  refine .cons (by decide) (.append (fun c hc => ?_) (.cons (by decide) printable_nil))
  obtain ⟨c', -, hc⟩ := List.mem_flatMap.mp hc
  exact printable_escape c' c hc

-- A value that nests nothing.
theorem printable_flat {depth : Nat} {value : Json} (harray : ∀ items, value ≠ .array items)
    (hobject : ∀ fields, value ≠ .object fields) (h : Fits depth value) :
    Printable (write value) := by
  cases value with
  | null =>
      decide
  | bool value =>
      cases value <;> decide
  | number text =>
      have hnumber : IsNumber text.toList := by
        cases depth <;> exact h
      exact printable_number hnumber
  | string text => exact printable_writeString text
  | array items => exact absurd rfl (harray items)
  | object fields => exact absurd rfl (hobject fields)

theorem printable_write (depth : Nat) {value : Json} (h : Fits depth value) :
    Printable (write value) := by
  induction depth generalizing value with
  | zero =>
      cases value with
      | array items => exact h.elim
      | object fields => exact h.elim
      | _ => exact printable_flat nofun nofun h
  | succ depth ih =>
      cases value with
      | array items =>
          rw [write, writeItems_eq]
          refine .cons (by decide)
            (.append (.intercalate fun text htext => ?_) (.cons (by decide) printable_nil))
          obtain ⟨item, hitem, rfl⟩ := List.mem_map.mp htext
          exact ih (h item hitem)
      | object fields =>
          rw [write, writeFields_eq]
          refine .cons (by decide)
            (.append (.intercalate fun text htext => ?_) (.cons (by decide) printable_nil))
          obtain ⟨field, hfield, rfl⟩ := List.mem_map.mp htext
          exact (printable_writeString field.1).append (.cons (by decide) (ih (h field hfield)))
      | _ => exact printable_flat nofun nofun h

end Lines

end AgentBoilerplate.Agent.JsonWriter
