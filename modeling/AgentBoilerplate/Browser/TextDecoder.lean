import AgentBoilerplate.Browser.EventStream
import AgentBoilerplate.Python.Quoting

namespace AgentBoilerplate.Browser

open Python

-- The code units of a text.
def unitsOf (c : Char) : List UInt16 :=
  if c.toNat < 0x10000 then [UInt16.ofNat c.toNat]
  else
    [UInt16.ofNat (0xD800 + (c.toNat - 0x10000) / 0x400),
      UInt16.ofNat (0xDC00 + (c.toNat - 0x10000) % 0x400)]

def units (text : List Char) : List UInt16 := text.flatMap unitsOf

def byteOrderMark : Char := Char.ofNat 0xFEFF

-- A `TextDecoder` between two chunks: the sequence it is in, and whether it has looked for
-- a byte order mark.
structure TextDecoder where
  pending : Option Utf8.Pending := none
  bomSeen : Bool := false

namespace TextDecoder

-- The characters that some bytes complete, and the sequence that they leave.
def scan (pending : Option Utf8.Pending) : List UInt8 → List Char × Option Utf8.Pending
  | [] => ([], pending)
  | b :: rest =>
      let later := scan (Utf8.step pending b).2 rest
      ((Utf8.step pending b).1 ++ later.1, later.2)

-- `decoder.decode(chunk, { stream: true })`.
def decode (decoder : TextDecoder) (chunk : List UInt8) : List UInt16 × TextDecoder :=
  let (chars, pending) := scan decoder.pending chunk
  match decoder.bomSeen, chars with
  | false, c :: rest => (units (if c = byteOrderMark then rest else c :: rest), ⟨pending, true⟩)
  | bomSeen, chars => (units chars, ⟨pending, bomSeen⟩)

def feed (decoder : TextDecoder) : List (List UInt8) → List (List UInt16)
  | [] => []
  | chunk :: chunks => (decoder.decode chunk).1 :: feed (decoder.decode chunk).2 chunks

theorem units_append (first second : List Char) :
    units (first ++ second) = units first ++ units second :=
  List.flatMap_append

theorem scan_cons (pending : Option Utf8.Pending) (b : UInt8) (rest : List UInt8) :
    scan pending (b :: rest) =
      ((Utf8.step pending b).1 ++ (scan (Utf8.step pending b).2 rest).1,
        (scan (Utf8.step pending b).2 rest).2) := rfl

theorem scan_append (pending : Option Utf8.Pending) (first second : List UInt8) :
    scan pending (first ++ second) =
      ((scan pending first).1 ++ (scan (scan pending first).2 second).1,
        (scan (scan pending first).2 second).2) := by
  induction first generalizing pending with
  | nil => rfl
  | cons b first ih => rw [List.cons_append, scan_cons, ih, scan_cons, List.append_assoc]

theorem decodeFrom_scan (pending : Option Utf8.Pending) (bytes rest : List UInt8) :
    Utf8.decodeFrom pending (bytes ++ rest) =
      (scan pending bytes).1 ++ Utf8.decodeFrom (scan pending bytes).2 rest := by
  induction bytes generalizing pending with
  | nil => rfl
  | cons b bytes ih => rw [List.cons_append, Utf8.decodeFrom_cons, ih, scan_cons, List.append_assoc]

-- A sequence that was started can go on.
def Open (pending : Option Utf8.Pending) : Prop := ∀ p, pending = some p → p.low ≤ p.high

theorem start_open (b : UInt8) : Open (Utf8.start b).2 := by
  unfold Utf8.start
  split_ifs <;> rintro p ⟨⟩ <;> dsimp only <;> decide

theorem step_open (pending : Option Utf8.Pending) (b : UInt8) : Open (Utf8.step pending b).2 := by
  cases pending with
  | none => exact start_open b
  | some p =>
    unfold Utf8.step
    dsimp only
    split_ifs
    · exact fun _ h => nomatch h
    · rintro p ⟨⟩
      dsimp only
      decide
    · exact start_open b

theorem scan_open {pending : Option Utf8.Pending} (h : Open pending) (bytes : List UInt8) :
    Open (scan pending bytes).2 := by
  induction bytes generalizing pending with
  | nil => exact h
  | cons b bytes ih => exact ih (step_open pending b)

theorem decodeFrom_singleton (b : UInt8) : Utf8.decodeFrom none [b] ≠ [] := by
  rw [Utf8.decodeFrom_cons]
  change (Utf8.start b).1 ++ Utf8.decodeFrom (Utf8.start b).2 [] ≠ []
  unfold Utf8.start
  split_ifs <;> exact List.cons_ne_nil _ _

-- The byte that a sequence is waiting for is not a character of its own.
theorem length_decodeFrom_low {p : Utf8.Pending} (h : p.low ≤ p.high) :
    (Utf8.decodeFrom (some p) [p.low]).length = 1 := by
  rw [Utf8.decodeFrom_cons]
  unfold Utf8.step
  dsimp only
  rw [if_pos ⟨UInt8.le_refl _, h⟩]
  split_ifs <;> rfl

theorem decodeFrom_encode (text : List Char) (rest : List UInt8) :
    Utf8.decodeFrom none (Utf8.encode text ++ rest) = text ++ Utf8.decodeFrom none rest := by
  induction text with
  | nil => rfl
  | cons c text ih =>
    unfold Utf8.encode at ih ⊢
    rw [List.flatMap_cons, List.append_assoc, Utf8.decodeFrom_encodeChar, ih]
    rfl

-- The bytes of a text are its characters, and leave no sequence open: an open one would
-- swallow a byte that follows.
theorem scan_encode (text : List Char) : scan none (Utf8.encode text) = (text, none) := by
  have hnone : Open none := fun _ h => nomatch h
  have hopen := scan_open hnone (Utf8.encode text)
  have hdecode := fun rest => (decodeFrom_scan none (Utf8.encode text) rest).symm.trans
    (decodeFrom_encode text rest)
  rcases hscan : scan none (Utf8.encode text) with ⟨chars, _ | p⟩
  · rw [hscan] at hdecode
    have hall := hdecode []
    change chars ++ [] = text ++ [] at hall
    rw [List.append_nil, List.append_nil] at hall
    rw [hall]
  · rw [hscan] at hdecode hopen
    have hlow := length_decodeFrom_low (hopen p rfl)
    have hall : (chars ++ [Utf8.replacement]).length = (text ++ []).length :=
      congrArg List.length (hdecode [])
    have hnext := congrArg List.length (hdecode [p.low])
    have hpos := List.length_pos_of_ne_nil (decodeFrom_singleton p.low)
    simp only [List.length_append, List.length_singleton, List.length_nil] at hall hnext
    omega

theorem decode_append (decoder : TextDecoder) (first second : List UInt8) :
    decoder.decode (first ++ second) =
      ((decoder.decode first).1 ++ ((decoder.decode first).2.decode second).1,
        ((decoder.decode first).2.decode second).2) := by
  obtain ⟨pending, bomSeen⟩ := decoder
  unfold decode
  dsimp only
  rw [scan_append]
  rcases scan pending first with ⟨_ | ⟨c, chars⟩, pending⟩
  · cases bomSeen <;> rfl
  · cases bomSeen with
    | false =>
      dsimp only [List.cons_append]
      split
      · rw [← units_append]
      · rw [← units_append]
        rfl
    | true =>
      dsimp only [List.cons_append]
      rw [← units_append]
      rfl

-- What the chunks decode to is what their bytes do, whatever the cuts.
theorem feed_flatten (decoder : TextDecoder) (chunks : List (List UInt8)) :
    (decoder.feed chunks).flatten = (decoder.decode chunks.flatten).1 := by
  induction chunks generalizing decoder with
  | nil =>
    obtain ⟨pending, _ | _⟩ := decoder <;> rfl
  | cons chunk chunks ih =>
    unfold feed
    rw [List.flatten_cons, ih, List.flatten_cons, decode_append]

-- A text that does not begin with a byte order mark arrives as it was written, and of its
-- beginning the beginning.
theorem decode_encode {text : List Char} (h : text.head? ≠ some byteOrderMark) :
    (decode {} (Utf8.encode text)).1 = units text := by
  unfold decode
  dsimp only
  rw [scan_encode]
  cases text with
  | nil => rfl
  | cons c text =>
    dsimp only
    rw [if_neg fun hc => h (congrArg some hc)]

end TextDecoder

end AgentBoilerplate.Browser
