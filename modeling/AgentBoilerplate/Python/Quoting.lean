import AgentBoilerplate.Python.Lemmas
import AgentBoilerplate.Python.UrlParse
import Mathlib.Data.List.SplitBy
import Mathlib.Tactic.IntervalCases

namespace AgentBoilerplate.Python

namespace Utf8

section

variable {n : Nat}

theorem toNat_byte (h : n < 256) : (UInt8.ofNat n).toNat = n := by
  rw [UInt8.toNat_ofNat']
  exact Nat.mod_eq_of_lt h

theorem byte_le (h : n < 256) (b : UInt8) : UInt8.ofNat n ≤ b ↔ n ≤ b.toNat := by
  rw [UInt8.le_iff_toNat_le, toNat_byte h]

theorem le_byte (h : n < 256) (b : UInt8) : b ≤ UInt8.ofNat n ↔ b.toNat ≤ n := by
  rw [UInt8.le_iff_toNat_le, toNat_byte h]

theorem byte_lt (h : n < 256) (b : UInt8) : UInt8.ofNat n < b ↔ n < b.toNat := by
  rw [UInt8.lt_iff_toNat_lt, toNat_byte h]

theorem start_one (h : n < 0x80) : start (UInt8.ofNat n) = ([Char.ofNat n], none) := by
  have hbyte : n < 256 := by omega
  have hascii : UInt8.ofNat n < 0x80 := (byte_lt hbyte 0x80).mpr h
  unfold start
  rw [if_pos hascii, toNat_byte hbyte]

theorem start_two (hlow : 0xC2 ≤ n) (hhigh : n ≤ 0xDF) :
    start (UInt8.ofNat n) = ([], some ⟨1, n % 0x20, 0x80, 0xBF⟩) := by
  have hbyte : n < 256 := by omega
  unfold start
  rw [if_neg, if_pos, toNat_byte hbyte]
  · exact ⟨(le_byte hbyte _).mpr hlow, (byte_le hbyte _).mpr hhigh⟩
  · rw [byte_lt hbyte]
    change ¬ n < 0x80
    omega

-- The range of the second byte of three.
def second3 (n : Nat) : UInt8 × UInt8 :=
  if n = 0xE0 then (0xA0, 0xBF) else if n = 0xED then (0x80, 0x9F) else (0x80, 0xBF)

theorem start_three (hlow : 0xE0 ≤ n) (hhigh : n ≤ 0xEF) :
    start (UInt8.ofNat n) = ([], some ⟨2, n % 0x10, (second3 n).1, (second3 n).2⟩) := by
  interval_cases n <;> rfl

-- And of four.
def second4 (n : Nat) : UInt8 × UInt8 :=
  if n = 0xF0 then (0x90, 0xBF) else if n = 0xF4 then (0x80, 0x8F) else (0x80, 0xBF)

theorem start_four (hlow : 0xF0 ≤ n) (hhigh : n ≤ 0xF4) :
    start (UInt8.ofNat n) = ([], some ⟨3, n % 0x8, (second4 n).1, (second4 n).2⟩) := by
  interval_cases n <;> rfl

theorem step_due {due bits : Nat} {low high : UInt8} (h : n < 256) (hlow : low.toNat ≤ n)
    (hhigh : n ≤ high.toNat) :
    step (some ⟨due, bits, low, high⟩) (UInt8.ofNat n) =
      if due = 1 then ([Char.ofNat (bits * 0x40 + n % 0x40)], none)
      else ([], some ⟨due - 1, bits * 0x40 + n % 0x40, 0x80, 0xBF⟩) := by
  unfold step
  dsimp only
  rw [if_pos ⟨(le_byte h _).mpr hlow, (byte_le h _).mpr hhigh⟩, toNat_byte h]

end

theorem decodeFrom_cons (pending : Option Pending) (b : UInt8) (rest : List UInt8) :
    decodeFrom pending (b :: rest) =
      (step pending b).1 ++ decodeFrom (step pending b).2 rest := by
  cases pending <;> rfl

-- The last byte of a character.
theorem decodeFrom_last {n bits : Nat} {low high : UInt8} (h : n < 256) (hlow : low.toNat ≤ n)
    (hhigh : n ≤ high.toNat) (rest : List UInt8) :
    decodeFrom (some ⟨1, bits, low, high⟩) (UInt8.ofNat n :: rest) =
      Char.ofNat (bits * 0x40 + n % 0x40) :: decodeFrom none rest := by
  rw [decodeFrom_cons, step_due h hlow hhigh]
  rfl

theorem decodeFrom_next {n due bits : Nat} {low high : UInt8} (h : n < 256) (hlow : low.toNat ≤ n)
    (hhigh : n ≤ high.toNat) (hdue : due ≠ 1) (rest : List UInt8) :
    decodeFrom (some ⟨due, bits, low, high⟩) (UInt8.ofNat n :: rest) =
      decodeFrom (some ⟨due - 1, bits * 0x40 + n % 0x40, 0x80, 0xBF⟩) rest := by
  rw [decodeFrom_cons, step_due h hlow hhigh, if_neg hdue]
  rfl

theorem second3_range {v : Nat} (hlow : 0x800 ≤ v) (hhigh : v ≤ 0xFFFF)
    (hvalid : v < 0xD800 ∨ 0xDFFF < v) :
    (second3 (v / 4096 % 0x10 + 0xE0)).1.toNat ≤ v / 64 % 0x40 + 0x80 ∧
      v / 64 % 0x40 + 0x80 ≤ (second3 (v / 4096 % 0x10 + 0xE0)).2.toNat := by
  unfold second3
  split
  · change 0xA0 ≤ _ ∧ _ ≤ 0xBF
    omega
  · split
    · change 0x80 ≤ _ ∧ _ ≤ 0x9F
      omega
    · change 0x80 ≤ _ ∧ _ ≤ 0xBF
      omega

theorem second4_range {v : Nat} (hlow : 0x10000 ≤ v) (hhigh : v ≤ 0x10FFFF) :
    (second4 (v / 262144 % 0x08 + 0xF0)).1.toNat ≤ v / 4096 % 0x40 + 0x80 ∧
      v / 4096 % 0x40 + 0x80 ≤ (second4 (v / 262144 % 0x08 + 0xF0)).2.toNat := by
  unfold second4
  split
  · change 0x90 ≤ _ ∧ _ ≤ 0xBF
    omega
  · split
    · change 0x80 ≤ _ ∧ _ ≤ 0x8F
      omega
    · change 0x80 ≤ _ ∧ _ ≤ 0xBF
      omega

theorem decodeFrom_encodeChar (c : Char) (rest : List UInt8) :
    decodeFrom none (String.utf8EncodeChar c ++ rest) = c :: decodeFrom none rest := by
  have hchar : Char.ofNat c.val.toNat = c := Char.ofNat_toNat c
  have hvalid : c.val.toNat < 0xD800 ∨ 0xDFFF < c.val.toNat ∧ c.val.toNat < 0x110000 := c.valid
  unfold String.utf8EncodeChar
  dsimp only
  generalize c.val.toNat = v at *
  by_cases hone : v ≤ 0x7F
  · rw [if_pos hone, List.cons_append, List.nil_append, decodeFrom_cons]
    change (start _).1 ++ decodeFrom (start _).2 rest = _
    rw [start_one (by omega), hchar]
    rfl
  rw [if_neg hone]
  by_cases htwo : v ≤ 0x7FF
  · rw [if_pos htwo, List.cons_append, List.cons_append, List.nil_append, decodeFrom_cons]
    change (start _).1 ++ decodeFrom (start _).2 _ = _
    rw [start_two (by omega) (by omega), List.nil_append,
      decodeFrom_last (by omega) (by change 0x80 ≤ _; omega) (by change _ ≤ 0xBF; omega)]
    congr 1
    rw [← hchar]
    congr 1
    omega
  rw [if_neg htwo]
  by_cases hthree : v ≤ 0xFFFF
  · have hrange := second3_range (by omega) hthree (by omega)
    rw [if_pos hthree, List.cons_append, List.cons_append, List.cons_append, List.nil_append,
      decodeFrom_cons]
    change (start _).1 ++ decodeFrom (start _).2 _ = _
    rw [start_three (by omega) (by omega), List.nil_append,
      decodeFrom_next (by omega) hrange.1 hrange.2 (by omega),
      decodeFrom_last (by omega) (by change 0x80 ≤ _; omega) (by change _ ≤ 0xBF; omega)]
    congr 1
    rw [← hchar]
    congr 1
    omega
  · have hrange := second4_range (v := v) (by omega) (by omega)
    rw [if_neg hthree, List.cons_append, List.cons_append, List.cons_append, List.cons_append,
      List.nil_append, decodeFrom_cons]
    change (start _).1 ++ decodeFrom (start _).2 _ = _
    rw [start_four (by omega) (by omega), List.nil_append,
      decodeFrom_next (by omega) hrange.1 hrange.2 (by omega),
      decodeFrom_next (by omega) (by change 0x80 ≤ _; omega) (by change _ ≤ 0xBF; omega) (by omega),
      decodeFrom_last (by omega) (by change 0x80 ≤ _; omega) (by change _ ≤ 0xBF; omega)]
    congr 1
    rw [← hchar]
    congr 1
    omega

-- Text survives its bytes.
theorem decode_encode (s : List Char) : decode (encode s) = s := by
  unfold decode encode
  induction s with
  | nil => rfl
  | cons c s ih => rw [List.flatMap_cons, decodeFrom_encodeChar, ih]

theorem encode_ascii {s : List Char} (h : s.all Str.isAscii) :
    encode s = s.map fun c => UInt8.ofNat c.toNat := by
  induction s with
  | nil => rfl
  | cons c s ih =>
    rw [List.all_cons, Bool.and_eq_true] at h
    have hascii : c.val.toNat < 0x80 := UInt32.lt_iff_toNat_lt.mp (of_decide_eq_true h.1)
    have hone : String.utf8EncodeChar c = [UInt8.ofNat c.toNat] := by
      unfold String.utf8EncodeChar
      rw [if_pos (by omega)]
      rfl
    rw [List.map_cons, ← ih h.2]
    unfold encode
    rw [List.flatMap_cons, hone]
    rfl

end Utf8

namespace UrlParse

-- The characters of an encoded name or value.
def isQuoted (c : Char) : Bool := isAlpha c ∨ isDigit c ∨ c ∈ ['_', '.', '-', '~', '+', '%']

theorem quoteByte_cases (b : UInt8) :
    (isAlwaysSafe b ∧ quoteByte b = [Char.ofNat b.toNat]) ∨ (b = 0x20 ∧ quoteByte b = ['+']) ∨
      quoteByte b = ['%', Str.hexDigit true (b.toNat / 16 % 16), Str.hexDigit true (b.toNat % 16)] := by
  unfold quoteByte
  split
  · exact Or.inl ⟨‹_›, rfl⟩
  · split
    · exact Or.inr (Or.inl ⟨‹_›, rfl⟩)
    · exact Or.inr (Or.inr rfl)

theorem forall_byte {p : UInt8 → Prop} (h : ∀ n < 256, p (UInt8.ofNat n)) (b : UInt8) : p b := by
  have hb := h b.toNat b.toNat_lt
  rwa [UInt8.ofNat_toNat] at hb

theorem quoteByte_isQuoted (b : UInt8) : (quoteByte b).all isQuoted :=
  forall_byte (p := fun b => (quoteByte b).all isQuoted) (by decide +kernel) b

theorem quotePlus_isQuoted (s : List Char) : (quotePlus s).all isQuoted := by
  unfold quotePlus
  rw [List.all_flatMap, List.all_eq_true]
  intro b _
  exact quoteByte_isQuoted b

theorem hexDigit_isHexDigit {n : Nat} (h : n < 16) :
    isHexDigit (Str.hexDigit true n) ∧ hexValue (Str.hexDigit true n) = n := by
  interval_cases n <;> decide

theorem safe_read (b : UInt8) : isAlwaysSafe b →
    Char.ofNat b.toNat ≠ '%' ∧ Char.ofNat b.toNat ≠ '+' ∧
      UInt8.ofNat (Char.ofNat b.toNat).toNat = b :=
  forall_byte (p := fun b => isAlwaysSafe b → Char.ofNat b.toNat ≠ '%' ∧
    Char.ofNat b.toNat ≠ '+' ∧ UInt8.ofNat (Char.ofNat b.toNat).toNat = b) (by decide +kernel) b

theorem unquoteToBytes_plain {c : Char} (h : c ≠ '%') (rest : List Char) :
    unquoteToBytes (c :: rest) = UInt8.ofNat c.toNat :: unquoteToBytes rest := by
  rw [unquoteToBytes]
  rintro a b tail rfl
  exact absurd rfl h

-- An escaped byte is read back.
theorem unquoteToBytes_quoteByte (b : UInt8) (rest : List Char) :
    unquoteToBytes (Str.replace '+' ' ' (quoteByte b) ++ rest) = b :: unquoteToBytes rest := by
  obtain ⟨hsafe, hquote⟩ | ⟨rfl, hquote⟩ | hquote := quoteByte_cases b
  · obtain ⟨hpercent, hplus, hread⟩ := safe_read b hsafe
    have hreplace : Str.replace '+' ' ' (quoteByte b) = [Char.ofNat b.toNat] := by
      rw [hquote]
      unfold Str.replace
      rw [List.map_singleton, if_neg hplus]
    rw [hreplace, List.singleton_append, unquoteToBytes_plain hpercent, hread]
  · rfl
  · have hhigh := hexDigit_isHexDigit (Nat.mod_lt (b.toNat / 16) (show 0 < 16 by decide))
    have hlow := hexDigit_isHexDigit (Nat.mod_lt b.toNat (show 0 < 16 by decide))
    have hkept : ∀ c, isHexDigit c → (if c = '+' then ' ' else c) = c := by
      rintro c hc
      rw [if_neg]
      rintro rfl
      exact absurd hc (by decide)
    have hreplace : Str.replace '+' ' ' (quoteByte b) = quoteByte b := by
      rw [hquote]
      unfold Str.replace
      rw [List.map_cons, List.map_cons, List.map_singleton, hkept _ hhigh.1, hkept _ hlow.1]
      rfl
    rw [hreplace, hquote]
    change unquoteToBytes ('%' :: Str.hexDigit true _ :: Str.hexDigit true _ :: rest) = _
    rw [unquoteToBytes, if_pos ⟨hhigh.1, hlow.1⟩, hhigh.2, hlow.2]
    congr 1
    have hbyte : b.toNat < 256 := b.toNat_lt
    have hvalue : b.toNat / 16 % 16 * 16 + b.toNat % 16 = b.toNat := by omega
    rw [hvalue, UInt8.ofNat_toNat]

theorem unquoteToBytes_quotePlus (s : List Char) :
    unquoteToBytes (Str.replace '+' ' ' (quotePlus s)) = Utf8.encode s := by
  unfold quotePlus
  generalize Utf8.encode s = bytes
  induction bytes with
  | nil => rfl
  | cons b bytes ih =>
    have hreplace : Str.replace '+' ' ' ((b :: bytes).flatMap quoteByte) =
        Str.replace '+' ' ' (quoteByte b) ++ Str.replace '+' ' ' (bytes.flatMap quoteByte) := by
      unfold Str.replace
      rw [List.flatMap_cons, List.map_append]
    rw [hreplace, unquoteToBytes_quoteByte, ih]

-- Text of ASCII characters is one run.
theorem unquote_ascii {s : List Char} (h : s.all Str.isAscii) :
    unquote s = Utf8.decode (unquoteToBytes s) := by
  unfold unquote
  split
  case isTrue hplain =>
    have hbytes : ∀ s : List Char, '%' ∉ s →
        unquoteToBytes s = s.map fun c => UInt8.ofNat c.toNat := by
      intro s hs
      induction s with
      | nil => rfl
      | cons c s ih =>
        rw [List.mem_cons, not_or] at hs
        rw [unquoteToBytes_plain (Ne.symm hs.1), ih hs.2, List.map_cons]
    rw [hbytes s hplain, ← Utf8.encode_ascii h, Utf8.decode_encode]
  case isFalse hpercent =>
    have hne : s ≠ [] := by
      rintro rfl
      exact hpercent List.not_mem_nil
    have hrun : s.splitBy (fun a b => Str.isAscii a == Str.isAscii b) = [s] := by
      refine List.splitBy_of_isChain hne ?_
      rw [List.all_eq_true] at h
      refine List.Pairwise.isChain ?_
      refine List.Pairwise.imp_of_mem ?_ (List.pairwise_of_forall fun _ _ => trivial)
      intro a b ha hb _
      rw [h a ha, h b hb]
      rfl
    rw [hrun, List.flatMap_singleton, if_pos h]

theorem isQuoted_range {c : Char} (h : isQuoted c) : 0x25 ≤ c.val.toNat ∧ c.val.toNat ≤ 0x7E := by
  unfold isQuoted isAlpha isDigit at h
  simp only [decide_eq_true_eq] at h
  obtain (⟨hlow, hhigh⟩ | ⟨hlow, hhigh⟩) | ⟨hlow, hhigh⟩ | hc := h
  · exact ⟨le_trans (by decide) (UInt32.le_iff_toNat_le.mp hlow),
      le_trans (UInt32.le_iff_toNat_le.mp hhigh) (by decide)⟩
  · exact ⟨le_trans (by decide) (UInt32.le_iff_toNat_le.mp hlow),
      le_trans (UInt32.le_iff_toNat_le.mp hhigh) (by decide)⟩
  · exact ⟨le_trans (by decide) (UInt32.le_iff_toNat_le.mp hlow),
      le_trans (UInt32.le_iff_toNat_le.mp hhigh) (by decide)⟩
  · exact Str.forall_of_all (p := fun c => 0x25 ≤ c.val.toNat ∧ c.val.toNat ≤ 0x7E) (by decide) c hc

theorem isAscii_of_isQuoted {c : Char} (h : isQuoted c) : Str.isAscii c := by
  have hrange := isQuoted_range h
  refine decide_eq_true (UInt32.lt_iff_toNat_lt.mpr ?_)
  change _ < 0x80
  omega

theorem unquotePlus_quotePlus (s : List Char) : unquotePlus (quotePlus s) = s := by
  have hascii : (Str.replace '+' ' ' (quotePlus s)).all Str.isAscii := by
    have hquoted := List.all_eq_true.mp (quotePlus_isQuoted s)
    unfold Str.replace
    rw [List.all_map, List.all_eq_true]
    intro c hc
    by_cases hplus : c = '+'
    · subst hplus
      rfl
    · change Str.isAscii (if c = '+' then ' ' else c)
      rw [if_neg hplus]
      exact isAscii_of_isQuoted (hquoted c hc)
  unfold unquotePlus
  rw [unquote_ascii hascii, unquoteToBytes_quotePlus, Utf8.decode_encode]

theorem notMem_of_isQuoted {s : List Char} {c : Char} (h : s.all isQuoted)
    (hc : isQuoted c = false) : c ∉ s := by
  intro hmem
  have hquoted := List.all_eq_true.mp h c hmem
  rw [hc] at hquoted
  cases hquoted

-- One field of an encoded query.
def encodeField (field : List Char × List Char) : List Char :=
  quotePlus field.1 ++ ['='] ++ quotePlus field.2

theorem urlencode_eq (query : List (List Char × List Char)) :
    urlencode query = ['&'].intercalate (query.map encodeField) := rfl

theorem partition_encodeField (field : List Char × List Char) :
    Str.partition '=' (encodeField field) = (quotePlus field.1, true, quotePlus field.2) := by
  unfold encodeField
  rw [List.append_assoc, List.singleton_append]
  exact Str.partition_append (notMem_of_isQuoted (quotePlus_isQuoted _) (by decide))

theorem mem_encodeField {field : List Char × List Char} {c : Char} (h : c ∈ encodeField field) :
    isQuoted c ∨ c = '=' := by
  have hquoted := fun s => List.all_eq_true.mp (quotePlus_isQuoted s)
  unfold encodeField at h
  rw [List.mem_append, List.mem_append, List.mem_singleton] at h
  obtain (hname | hsep) | hvalue := h
  · exact Or.inl (hquoted _ c hname)
  · exact Or.inr hsep
  · exact Or.inl (hquoted _ c hvalue)

theorem encodeField_ne_nil (field : List Char × List Char) : encodeField field ≠ [] := by
  unfold encodeField
  simp

-- Encoded fields are read back.
theorem parseQsl_urlencode (query : List (List Char × List Char)) :
    parseQsl (urlencode query) = query := by
  have hsplit : ((urlencode query).splitOn '&').filter (fun nameValue => nameValue ≠ []) =
      query.map encodeField := by
    cases query with
    | nil => rfl
    | cons field query =>
      rw [urlencode_eq, List.splitOn_intercalate]
      · rw [List.filter_eq_self]
        intro nameValue hmem
        obtain ⟨field, _, rfl⟩ := List.mem_map.mp hmem
        exact decide_eq_true (encodeField_ne_nil field)
      · intro nameValue hmem hsep
        obtain ⟨field, _, rfl⟩ := List.mem_map.mp hmem
        obtain h | h := mem_encodeField hsep
        · exact absurd h (by decide)
        · exact absurd h (by decide)
      · simp
  unfold parseQsl
  rw [hsplit, List.map_map, List.map_congr_left (g := id), List.map_id]
  intro field _
  change (unquotePlus (Str.partition '=' (encodeField field)).1,
    unquotePlus (Str.partition '=' (encodeField field)).2.2) = field
  rw [partition_encodeField, unquotePlus_quotePlus, unquotePlus_quotePlus]

theorem urlencode_injective : Function.Injective urlencode := by
  intro query₁ query₂ h
  rw [← parseQsl_urlencode query₁, h, parseQsl_urlencode]

theorem mem_urlencode {query : List (List Char × List Char)} {c : Char}
    (h : c ∈ urlencode query) : isQuoted c ∨ c = '=' ∨ c = '&' := by
  induction query with
  | nil => exact absurd h List.not_mem_nil
  | cons field query ih =>
    cases query with
    | nil =>
      have hfield : c ∈ encodeField field := by simpa [urlencode_eq] using h
      obtain hc | hc := mem_encodeField hfield
      · exact Or.inl hc
      · exact Or.inr (Or.inl hc)
    | cons next query =>
      have hmem : c ∈ encodeField field ∨ c = '&' ∨ c ∈ urlencode (next :: query) := by
        simpa [urlencode_eq, List.intercalate_cons_cons] using h
      obtain hfield | hsep | hrest := hmem
      · obtain hc | hc := mem_encodeField hfield
        · exact Or.inl hc
        · exact Or.inr (Or.inl hc)
      · exact Or.inr (Or.inr hsep)
      · exact ih hrest

theorem urlencode_eq_nil {query : List (List Char × List Char)} :
    urlencode query = [] ↔ query = [] := by
  constructor
  · intro h
    rw [← parseQsl_urlencode query, h]
    rfl
  · rintro rfl
    rfl

end UrlParse

end AgentBoilerplate.Python
