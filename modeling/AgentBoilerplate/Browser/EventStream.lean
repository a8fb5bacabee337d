import AgentBoilerplate.Collections.Framing
import Mathlib.Data.List.DropRight

namespace AgentBoilerplate.Browser

open Collections

-- Strings are lists of UTF-16 code units here. This is an ASCII literal.
def ascii (s : String) : List UInt16 := s.toList.map fun c => UInt16.ofNat c.toNat

def newline : UInt16 := 0xA

-- What `trim` removes: white space and line terminators.
def isWhite (c : UInt16) : Bool :=
  (0x9 ≤ c ∧ c ≤ 0xD) ∨ c = 0x20 ∨ c = 0xA0 ∨ c = 0x1680 ∨ (0x2000 ≤ c ∧ c ≤ 0x200A) ∨ c = 0x2028 ∨
    c = 0x2029 ∨ c = 0x202F ∨ c = 0x205F ∨ c = 0x3000 ∨ c = 0xFEFF

def trim (s : List UInt16) : List UInt16 := (s.dropWhile isWhite).rdropWhile isWhite

structure SSEEvent where
  event : List UInt16
  data : List UInt16
deriving DecidableEq, Repr

-- `buffer.indexOf("\n\n")`, where `-1` is `none`.
def separatorOf : List UInt16 → Option Nat
  | a :: b :: rest =>
      if a = newline ∧ b = newline then some 0 else (separatorOf (b :: rest)).map (· + 1)
  | _ => none

-- The event and the data lines of a block, so far.
def readLine (block : List UInt16 × List (List UInt16)) (line : List UInt16) :
    List UInt16 × List (List UInt16) :=
  if (ascii "event:").isPrefixOf line then (trim (line.drop 6), block.2)
  else if (ascii "data:").isPrefixOf line then (block.1, block.2 ++ [trim (line.drop 5)])
  else block

def readBlock (block : List UInt16) : List SSEEvent :=
  let (event, data) := (block.splitOn newline).foldl readLine (ascii "message", [])
  if data.length > 0 then [⟨event, [newline].intercalate data⟩] else []

theorem separatorOf_lt {buffer : List UInt16} {separator : Nat} (h : separatorOf buffer = some separator) :
    separator + 2 ≤ buffer.length := by
  induction buffer generalizing separator with
  | nil => cases h
  | cons a tail ih =>
    cases tail with
    | nil => cases h
    | cons b rest =>
      unfold separatorOf at h
      by_cases hblank : a = newline ∧ b = newline
      · rw [if_pos hblank] at h
        cases h
        simp
      · rw [if_neg hblank] at h
        obtain ⟨earlier, hearlier, rfl⟩ := Option.map_eq_some_iff.mp h
        have hle := ih hearlier
        rw [List.length_cons]
        omega

theorem separatorOf_append {buffer : List UInt16} {separator : Nat}
    (h : separatorOf buffer = some separator) (more : List UInt16) :
    separatorOf (buffer ++ more) = some separator := by
  induction buffer generalizing separator with
  | nil => cases h
  | cons a tail ih =>
    cases tail with
    | nil => cases h
    | cons b rest =>
      rw [List.cons_append, List.cons_append]
      unfold separatorOf at h ⊢
      by_cases hblank : a = newline ∧ b = newline
      · rw [if_pos hblank] at h ⊢
        exact h
      · rw [if_neg hblank] at h ⊢
        obtain ⟨earlier, hearlier, rfl⟩ := Option.map_eq_some_iff.mp h
        have hmore := ih hearlier
        rw [List.cons_append] at hmore
        rw [hmore]
        rfl

-- One turn of the loop: the block before the separator, and the buffer after it.
def takeBlock (buffer : List UInt16) : Option (List SSEEvent × List UInt16) :=
  (separatorOf buffer).map fun separator =>
    (readBlock (buffer.take separator), buffer.drop (separator + 2))

theorem takeBlock_some {buffer rest : List UInt16} {events : List SSEEvent}
    (h : takeBlock buffer = some (events, rest)) :
    ∃ separator, separatorOf buffer = some separator ∧ events = readBlock (buffer.take separator) ∧
      rest = buffer.drop (separator + 2) := by
  obtain ⟨separator, hseparator, heq⟩ := Option.map_eq_some_iff.mp h
  cases heq
  exact ⟨separator, hseparator, rfl, rfl⟩

def blocks : Framer UInt16 SSEEvent where
  next := takeBlock
  shorter h := by
    obtain ⟨separator, hseparator, _, rfl⟩ := takeBlock_some h
    have hle := separatorOf_lt hseparator
    rw [List.length_drop]
    omega
  stable h more := by
    obtain ⟨separator, hseparator, rfl, rfl⟩ := takeBlock_some h
    have hle := separatorOf_lt hseparator
    unfold takeBlock
    rw [separatorOf_append hseparator, Option.map_some, List.take_append_of_le_length (by omega),
      List.drop_append_of_le_length (by omega)]

-- A parser is its buffer, and `createSSEParser` starts with an empty one: the events
-- that each chunk returns.
def createSSEParser (chunks : List (List UInt16)) : List (List SSEEvent) := blocks.feed [] chunks

-- A payload on a single line, with no white space around it.
structure Payload where
  text : List UInt16
  single : newline ∉ text
  first : ∀ c ∈ text.head?, isWhite c = false
  last : ∀ c ∈ text.getLast?, isWhite c = false

-- A text for a comment, on a single line.
structure Comment where
  text : List UInt16
  single : newline ∉ text

-- What the server sends: an update, or a comment that keeps the connection alive.
inductive Frame where
  | update (payload : Payload)
  | keepAlive (comment : Comment)

def Frame.encode : Frame → List UInt16
  | .update payload =>
      ascii "event: update" ++ newline :: (ascii "data: " ++ payload.text) ++ [newline, newline]
  | .keepAlive comment => ascii ":" ++ comment.text ++ [newline, newline]

def Frame.events : Frame → List SSEEvent
  | .update payload => [⟨ascii "update", payload.text⟩]
  | .keepAlive _ => []

theorem separatorOf_line {line : List UInt16} (h : newline ∉ line) (rest : List UInt16) :
    separatorOf (line ++ newline :: rest) = (separatorOf (newline :: rest)).map (· + line.length) := by
  induction line with
  | nil =>
    rw [List.nil_append]
    cases separatorOf (newline :: rest) <;> rfl
  | cons a line ih =>
    obtain ⟨hne, hrest⟩ := not_or.mp (mt List.mem_cons.mpr h)
    have hstep : separatorOf (a :: (line ++ newline :: rest)) =
        (separatorOf (line ++ newline :: rest)).map (· + 1) := by
      cases line with
      | nil => exact if_neg fun hboth => hne hboth.1.symm
      | cons b line => exact if_neg fun hboth => hne hboth.1.symm
    rw [List.cons_append, hstep, ih hrest, Option.map_map, List.length_cons]
    refine congrArg (fun f => Option.map f _) (funext fun separator => ?_)
    change separator + line.length + 1 = separator + (line.length + 1)
    omega

theorem separatorOf_blank (rest : List UInt16) : separatorOf (newline :: newline :: rest) = some 0 :=
  if_pos ⟨rfl, rfl⟩

-- A line that ends a block.
theorem separatorOf_last {line : List UInt16} (h : newline ∉ line) (rest : List UInt16) :
    separatorOf (line ++ newline :: newline :: rest) = some line.length := by
  rw [separatorOf_line h, separatorOf_blank]
  exact congrArg some (Nat.zero_add _)

-- Two lines that end a block, of which the second one is not empty.
theorem separatorOf_lines {first second : List UInt16} (hfirst : newline ∉ first)
    (hsecond : newline ∉ second) (hne : second ≠ []) (rest : List UInt16) :
    separatorOf ((first ++ newline :: second) ++ newline :: newline :: rest) =
      some (first ++ newline :: second).length := by
  have hskip : separatorOf (newline :: (second ++ newline :: newline :: rest)) =
      (separatorOf (second ++ newline :: newline :: rest)).map (· + 1) := by
    obtain ⟨c, more, rfl⟩ := List.exists_cons_of_ne_nil hne
    exact if_neg fun hboth => hsecond (List.mem_cons.mpr (Or.inl hboth.2.symm))
  rw [List.append_assoc, List.cons_append, separatorOf_line hfirst, hskip, separatorOf_last hsecond,
    Option.map_some, Option.map_some, List.length_append, List.length_cons]
  refine congrArg some ?_
  omega

theorem newline_append {first second : List UInt16} (hfirst : newline ∉ first)
    (hsecond : newline ∉ second) : newline ∉ first ++ second :=
  fun h => (List.mem_append.mp h).elim hfirst hsecond

theorem takeBlock_of {block rest : List UInt16}
    (h : separatorOf (block ++ newline :: newline :: rest) = some block.length) :
    takeBlock (block ++ newline :: newline :: rest) = some (readBlock block, rest) := by
  unfold takeBlock
  rw [h, Option.map_some, List.take_left, List.drop_length_add_append]
  rfl

theorem trim_payload (payload : Payload) : trim (0x20 :: payload.text) = payload.text := by
  have hblank : isWhite 0x20 = true := by decide
  have hfront : (0x20 :: payload.text).dropWhile isWhite = payload.text := by
    rw [List.dropWhile_cons_of_pos hblank]
    cases htext : payload.text with
    | nil => rfl
    | cons c rest =>
      have hfirst := payload.first c (by rw [htext]; rfl)
      exact List.dropWhile_cons_of_neg (by simp [hfirst])
  unfold trim
  rw [hfront]
  refine List.rdropWhile_eq_self_iff.mpr fun hne => ?_
  rw [payload.last _ (List.getLast?_eq_some_getLast hne)]
  exact Bool.false_ne_true

theorem readBlock_comment (comment : Comment) : readBlock (ascii ":" ++ comment.text) = [] := by
  have hlines : (ascii ":" ++ comment.text).splitOn newline = [ascii ":" ++ comment.text] :=
    List.splitOn_eq_singleton (newline_append (by decide) comment.single)
  unfold readBlock
  rw [hlines]
  rfl

theorem readBlock_update (payload : Payload) :
    readBlock (ascii "event: update" ++ newline :: (ascii "data: " ++ payload.text)) =
      [⟨ascii "update", payload.text⟩] := by
  have hlines : (ascii "event: update" ++ newline :: (ascii "data: " ++ payload.text)).splitOn newline =
      [ascii "event: update", ascii "data: " ++ payload.text] := by
    rw [List.splitOn_append_cons_self_of_not_mem (by decide),
      List.splitOn_eq_singleton (newline_append (by decide) payload.single)]
  have hdata : readLine (ascii "update", []) (ascii "data: " ++ payload.text) =
      (ascii "update", [payload.text]) := by
    have htrim := trim_payload payload
    change (ascii "update", [trim (0x20 :: payload.text)]) = _
    rw [htrim]
  have hevent : readLine (ascii "message", []) (ascii "event: update") = (ascii "update", []) := by
    decide
  unfold readBlock
  rw [hlines, List.foldl_cons, List.foldl_cons, hevent, hdata]
  change [SSEEvent.mk (ascii "update") ([newline].intercalate [payload.text])] = _
  rw [List.intercalate_singleton]

-- A frame is taken as a whole.
theorem takeBlock_frame (frame : Frame) (rest : List UInt16) :
    takeBlock (frame.encode ++ rest) = some (frame.events, rest) := by
  cases frame with
  | update payload =>
    have hhead : newline ∉ ascii "event: update" := by decide
    have htail : newline ∉ ascii "data: " ++ payload.text := newline_append (by decide) payload.single
    have hne : ascii "data: " ++ payload.text ≠ [] := List.append_ne_nil_of_left_ne_nil (by decide) _
    have htake := takeBlock_of (separatorOf_lines hhead htail hne rest)
    rw [readBlock_update] at htake
    unfold Frame.encode
    rw [List.append_assoc]
    exact htake
  | keepAlive comment =>
    have hline : newline ∉ ascii ":" ++ comment.text := newline_append (by decide) comment.single
    have htake := takeBlock_of (separatorOf_last hline rest)
    rw [readBlock_comment] at htake
    unfold Frame.encode
    rw [List.append_assoc]
    exact htake

theorem drain_frames (frames : List Frame) :
    blocks.drain (frames.flatMap Frame.encode) = (frames.flatMap Frame.events, []) := by
  induction frames with
  | nil => exact Framer.drain_none rfl
  | cons frame frames ih =>
    rw [List.flatMap_cons, Framer.drain_some (takeBlock_frame frame _), ih]
    rfl

-- However the text of a stream is cut, the parser returns the same events, and for
-- frames these are the updates in their order.
theorem createSSEParser_chunks (chunks : List (List UInt16)) :
    (createSSEParser chunks).flatten = (createSSEParser [chunks.flatten]).flatten ∧
      ∀ frames : List Frame, chunks.flatten = frames.flatMap Frame.encode →
        (createSSEParser chunks).flatten = frames.flatMap Frame.events := by
  have hidle : blocks.next [] = none := rfl
  refine ⟨blocks.feed_chunks hidle chunks, fun frames hframes => ?_⟩
  unfold createSSEParser
  rw [blocks.feed_flatten [] hidle, List.nil_append, hframes, drain_frames]

private theorem emptyObject_edges :
    (∀ c ∈ (ascii "\x7b\x7d").head?, isWhite c = false) ∧
      ∀ c ∈ (ascii "\x7b\x7d").getLast?, isWhite c = false := by
  constructor <;> intro c hc <;> cases hc <;> decide +kernel

private def emptyObject : Payload :=
  ⟨ascii "\x7b\x7d", by decide, emptyObject_edges.1, emptyObject_edges.2⟩

-- An update between two comments, cut inside a name and inside the blank line.
theorem createSSEParser_pieces :
    let chunks := [ascii ":\n\nevent: upd", ascii "ate\ndata: \x7b\x7d\n", ascii "\n: ping\n\n"]
    (createSSEParser chunks).flatten = [⟨ascii "update", ascii "\x7b\x7d"⟩] := by
  intro chunks
  have hframes := (createSSEParser_chunks chunks).2
    [.keepAlive ⟨[], by decide⟩, .update emptyObject, .keepAlive ⟨ascii " ping", by decide⟩]
  exact hframes (by decide)

end AgentBoilerplate.Browser
