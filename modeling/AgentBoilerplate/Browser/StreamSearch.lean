import AgentBoilerplate.Agent.JsonWriter
import AgentBoilerplate.Browser.Schema
import AgentBoilerplate.Browser.TextDecoder

namespace AgentBoilerplate.Browser

open Python Agent.JsonWriter
open Agent (Json)

section Reading

-- The characters of some code units.
def charsOf : List UInt16 → List Char
  | [] => []
  | [unit] => [Char.ofNat unit.toNat]
  | high :: low :: rest =>
      if 0xD800 ≤ high.toNat ∧ high.toNat ≤ 0xDBFF then
        Char.ofNat (0x10000 + (high.toNat - 0xD800) * 0x400 + (low.toNat - 0xDC00)) :: charsOf rest
      else
        Char.ofNat high.toNat :: charsOf (low :: rest)

theorem charsOf_unitsOf (c : Char) (rest : List UInt16) :
    charsOf (unitsOf c ++ rest) = c :: charsOf rest := by
  have hchar : Char.ofNat c.toNat = c := Char.ofNat_toNat c
  have hvalid : c.toNat < 0xD800 ∨ 0xDFFF < c.toNat ∧ c.toNat < 0x110000 := c.valid
  unfold unitsOf
  by_cases hsmall : c.toNat < 0x10000
  · have hunit : (UInt16.ofNat c.toNat).toNat = c.toNat := by
      rw [UInt16.toNat_ofNat', Nat.mod_eq_of_lt hsmall]
    rw [if_pos hsmall, List.singleton_append]
    cases rest with
    | nil =>
      change [Char.ofNat (UInt16.ofNat c.toNat).toNat] = [c]
      rw [hunit, hchar]
    | cons unit rest =>
      rw [charsOf, hunit, hchar, if_neg (by omega)]
  · have hhigh : (UInt16.ofNat (0xD800 + (c.toNat - 0x10000) / 0x400)).toNat =
        0xD800 + (c.toNat - 0x10000) / 0x400 := by
      rw [UInt16.toNat_ofNat', Nat.mod_eq_of_lt (by omega)]
    have hlow : (UInt16.ofNat (0xDC00 + (c.toNat - 0x10000) % 0x400)).toNat =
        0xDC00 + (c.toNat - 0x10000) % 0x400 := by
      rw [UInt16.toNat_ofNat', Nat.mod_eq_of_lt (by omega)]
    have hpair : 0x10000 + (0xD800 + (c.toNat - 0x10000) / 0x400 - 0xD800) * 0x400 +
        (0xDC00 + (c.toNat - 0x10000) % 0x400 - 0xDC00) = c.toNat := by
      omega
    rw [if_neg hsmall, List.cons_append, List.cons_append, List.nil_append, charsOf, hhigh, hlow,
      if_pos (by omega), hpair, hchar]

theorem charsOf_units (text : List Char) : charsOf (units text) = text := by
  induction text with
  | nil => rfl
  | cons c text ih =>
    change charsOf (unitsOf c ++ units text) = _
    rw [charsOf_unitsOf, ih]

end Reading

-- What is used of `JSON.parse`: it reads what is written without blanks as the agent's
-- decoder does, however deep it nests. An object is its properties here, in the order of
-- the text.
def jsonParse (text : List UInt16) : Option Json :=
  match Agent.JsonDecoder.loads (charsOf text).length (charsOf text) with
  | .ok value => some value
  | .error _ => none

section Lengths

theorem length_le_intercalate (sep : List Char) {part : List Char} {parts : List (List Char)}
    (h : part ∈ parts) : part.length ≤ (sep.intercalate parts).length := by
  induction parts with
  | nil => cases h
  | cons first rest ih =>
      cases rest with
      | nil =>
          rw [List.mem_singleton.mp h]
          simp [List.intercalate]
      | cons second rest =>
          have hlength : (sep.intercalate (first :: second :: rest)).length =
              first.length + sep.length + (sep.intercalate (second :: rest)).length := by
            simp [List.intercalate]
            omega
          rcases List.mem_cons.mp h with rfl | hrest
          · omega
          · have hle := ih hrest
            omega

-- A text is longer than what it nests is deep.
theorem fits_length {depth : Nat} {value : Json} (h : Fits depth value) :
    Fits (write value).length value := by
  induction depth generalizing value with
  | zero => exact h.mono (Nat.zero_le _)
  | succ depth ih =>
    cases value with
    | array items =>
      have hlength : (write (.array items)).length =
          ([','].intercalate (items.map write)).length + 1 + 1 := by
        rw [write, writeItems_eq, List.length_cons, List.length_append, List.length_singleton]
      rw [hlength]
      refine fits_array fun item hitem => (ih (h item hitem)).mono ?_
      exact (length_le_intercalate _ (List.mem_map_of_mem hitem)).trans (Nat.le_succ _)
    | object fields =>
      have hlength : (write (.object fields)).length =
          ([','].intercalate (writeFields fields)).length + 1 + 1 := by
        rw [write, List.length_cons, List.length_append, List.length_singleton]
      rw [hlength, writeFields_eq]
      refine fits_object fun field hfield => (ih (h field hfield)).mono ?_
      have hle := length_le_intercalate [','] (List.mem_map_of_mem hfield
        (f := fun field : String × Json => writeString field.1 ++ ':' :: write field.2))
      rw [List.length_append, List.length_cons] at hle
      omega
    | null => exact (show Fits 0 .null from h).mono (Nat.zero_le _)
    | bool value => exact fits_bool _ value
    | number text => exact (show Fits 0 (.number text) from h).mono (Nat.zero_le _)
    | string text => exact fits_string _ text

theorem jsonParse_write {depth : Nat} {value : Json} (h : Fits depth value) :
    jsonParse (units (write value)) = some value := by
  unfold jsonParse
  rw [charsOf_units, loads_write (fits_length h)]

end Lengths

section Handing

-- What becomes of the events of a stream: the updates that are handed to the page, and
-- whether one of them was not what it should be, which ends the stream.
def handOver : List SSEEvent → List SearchJobDetail × Bool
  | [] => ([], false)
  | event :: events =>
      if event.event = ascii "update" then
        match (jsonParse event.data).bind fun value =>
            searchJobDetailSchema (some value) with
        | none => ([], true)
        | some job => (job :: (handOver events).1, (handOver events).2)
      else
        handOver events

-- The chunks of a response's body.
def streamSearch (chunks : List (List UInt8)) : List SearchJobDetail × Bool :=
  handOver (createSSEParser (TextDecoder.feed {} chunks)).flatten

theorem handOver_updates {α : Type} {data : α → List UInt16} {job : α → SearchJobDetail}
    (h : ∀ item, (jsonParse (data item)).bind
      (fun value => searchJobDetailSchema (some value)) = some (job item)) (items : List α) :
    handOver (items.map fun item => ⟨ascii "update", data item⟩) = (items.map job, false) := by
  induction items with
  | nil => rfl
  | cons item items ih =>
      rw [List.map_cons, handOver, if_pos rfl, h item, ih]
      rfl

end Handing

section Texts

variable {text : List Char}

theorem unit_ne_newline {n : Nat} (hn : n < 0x10000) (hne : n ≠ 0xA) : newline ≠ UInt16.ofNat n := by
  intro h
  have htoNat := congrArg UInt16.toNat h
  rw [UInt16.toNat_ofNat', Nat.mod_eq_of_lt hn] at htoNat
  exact hne htoNat.symm

theorem unitsOf_newline {c : Char} (hc : 0x1F < c.val) : newline ∉ unitsOf c := by
  have hlow : 0x1F < c.toNat := UInt32.lt_iff_toNat_lt.mp hc
  have hhigh : c.toNat < 0x110000 := by
    rcases c.valid with h | h
    · exact Nat.lt_trans h (by decide)
    · exact h.2
  unfold unitsOf
  split
  · rw [List.mem_singleton]
    exact unit_ne_newline (by omega) (by omega)
  · simp only [List.mem_cons, List.not_mem_nil, or_false, not_or]
    exact ⟨unit_ne_newline (by omega) (by omega), unit_ne_newline (by omega) (by omega)⟩

theorem units_newline (h : Printable text) : newline ∉ units text := by
  intro hmem
  obtain ⟨c, hc, hunit⟩ := List.mem_flatMap.mp hmem
  exact unitsOf_newline (h c hc) hunit

theorem units_object (fields : List (String × Json)) :
    units (write (.object fields)) =
      0x7B :: (units ([','].intercalate (writeFields fields)) ++ [0x7D]) := by
  rw [write]
  change unitsOf _ ++ units _ = _
  rw [TextDecoder.units_append]
  rfl

-- The text of an object, as the payload of an update.
def objectPayload (fields : List (String × Json)) (h : ∃ depth, Fits depth (.object fields)) :
    Payload where
  text := units (write (.object fields))
  single := by
    obtain ⟨depth, hfits⟩ := h
    exact units_newline (printable_write depth hfits)
  first := by
    rw [units_object]
    rintro c ⟨⟩
    decide
  last := by
    rw [units_object, ← List.cons_append, List.getLast?_concat]
    rintro c ⟨⟩
    decide

end Texts

section Arrivals

variable {frames : List Frame} {text : List Char} {chunks : List (List UInt8)}

-- What has arrived of a text of frames, be it cut within a character, is decoded to the
-- first of their events.
theorem events_prefix {lost : List UInt8} (htext : units text = frames.flatMap Frame.encode)
    (hmark : text.head? ≠ some byteOrderMark) (hbytes : chunks.flatten ++ lost = Utf8.encode text) :
    (createSSEParser (TextDecoder.feed {} chunks)).flatten <+: frames.flatMap Frame.events := by
  have hidle : blocks.next [] = none := rfl
  have hunits := TextDecoder.decode_encode hmark
  rw [← hbytes, TextDecoder.decode_append, htext] at hunits
  dsimp only at hunits
  have hdrain := blocks.drain_append (TextDecoder.decode {} chunks.flatten).1
    ((TextDecoder.decode {} chunks.flatten).2.decode lost).1
  rw [hunits, drain_frames] at hdrain
  unfold createSSEParser
  rw [blocks.feed_flatten [] hidle, List.nil_append, TextDecoder.feed_flatten]
  exact ⟨_, (congrArg Prod.fst hdrain).symm⟩

theorem events_whole (htext : units text = frames.flatMap Frame.encode)
    (hmark : text.head? ≠ some byteOrderMark) (hbytes : chunks.flatten = Utf8.encode text) :
    (createSSEParser (TextDecoder.feed {} chunks)).flatten = frames.flatMap Frame.events := by
  have hidle : blocks.next [] = none := rfl
  unfold createSSEParser
  rw [blocks.feed_flatten [] hidle, List.nil_append, TextDecoder.feed_flatten, hbytes,
    TextDecoder.decode_encode hmark, htext, drain_frames]

end Arrivals

end AgentBoilerplate.Browser
