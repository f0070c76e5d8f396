import Mathlib.Data.List.Induction
import NodeTrace.BigEndian
import NodeTrace.Format

/-!
# Written traces

The grammar of traces, apart from any decoder or encoder.  A written element keeps what its bytes say: the
tag, the last bit of the control word, and the payload.  A written frame is a run of scope elements, a
separator and an event element.  `bytes` spells them, `WellFormed` says which of them are allowed under a
limit on attached data, and `meaning` reads them: a run of scope elements as the fold of its elements from
left to right, so that of two elements of one kind the last counts (`scope_simulation`, `scope_node`).
-/

namespace NodeTrace.Written

/-! ## Numbers in a payload -/

/-- The number that `width` bytes of a payload write, from the byte `start` on. -/
def number (payload : List UInt8) (start width : Nat) : Nat :=
  BigEndian.toNat ((payload.drop start).take width)

def word8 (payload : List UInt8) (start : Nat) : UInt8 := UInt8.ofNat (number payload start 1)
def word16 (payload : List UInt8) (start : Nat) : UInt16 := UInt16.ofNat (number payload start 2)
def word32 (payload : List UInt8) (start : Nat) : UInt32 := UInt32.ofNat (number payload start 4)
def word64 (payload : List UInt8) (start : Nat) : UInt64 := UInt64.ofNat (number payload start 8)
def double (payload : List UInt8) (start : Nat) : Binary64 := ⟨word64 payload start⟩

/-- The clocks of a node: cycles, then milliseconds. -/
def nodeTime (payload : List UInt8) (start : Nat) : NodeTime :=
  ⟨word64 payload start, double payload (start + 8)⟩

/-- A number is read back where it was written. -/
theorem number_ofNat {start width n : Nat} {before : List UInt8} (hs : before.length = start)
    (hn : n < BigEndian.capacity width) (behind : List UInt8) :
    number (before ++ (BigEndian.ofNat width n ++ behind)) start width = n := by
  unfold number
  rw [← hs, List.drop_left, List.take_left' (BigEndian.length_ofNat width n), BigEndian.toNat_ofNat hn]

/-- What is read as a number writes the same bytes again. -/
theorem drop_eq_number {payload : List UInt8} {start width : Nat} (h : start + width ≤ payload.length) :
    payload.drop start =
      BigEndian.ofNat width (number payload start width) ++ payload.drop (start + width) := by
  have hlen : ((payload.drop start).take width).length = width := by
    rw [List.length_take_of_le]
    rw [List.length_drop]
    omega
  have hread := BigEndian.ofNat_toNat ((payload.drop start).take width)
  rw [hlen] at hread
  unfold number
  rw [hread, ← List.drop_drop, List.take_append_drop]

theorem number_lt {payload : List UInt8} {start width : Nat} (h : start + width ≤ payload.length) :
    number payload start width < BigEndian.capacity width := by
  have hlen : ((payload.drop start).take width).length = width := by
    rw [List.length_take_of_le]
    rw [List.length_drop]
    omega
  have hlt := BigEndian.toNat_lt ((payload.drop start).take width)
  rwa [hlen] at hlt

theorem number_take {start width n : Nat} (h : start + width ≤ n) (payload : List UInt8) :
    number (payload.take n) start width = number payload start width := by
  unfold number
  rw [List.drop_take, List.take_take, Nat.min_eq_left (by omega)]

theorem nodeTime_take {start n : Nat} (h : start + 16 ≤ n) (payload : List UInt8) :
    nodeTime (payload.take n) start = nodeTime payload start := by
  unfold nodeTime double word64
  rw [number_take (by omega), number_take (by omega)]

theorem nodeTime_drop (payload : List UInt8) (n start : Nat) :
    nodeTime (payload.drop n) start = nodeTime payload (n + start) := by
  unfold nodeTime double word64 number
  rw [List.drop_drop, List.drop_drop, Nat.add_assoc]

/-! ## Elements -/

/-- How many bytes the length field has: none behind tag 0, else four or one by the last bit of the control word. -/
def lengthWidth (tag : UInt16) (wide : Bool) : Nat := if tag = 0 then 0 else if wide then 4 else 1

/-- Control word and length field. -/
def head (tag : UInt16) (wide : Bool) (length : Nat) : List UInt8 :=
  BigEndian.ofNat 2 (tag.toNat * 2 + wide.toNat) ++ BigEndian.ofNat (lengthWidth tag wide) length

/-- The tag has fifteen bits and the length field can say the length; behind tag 0 it can only be zero. -/
structure HeadFits (tag : UInt16) (wide : Bool) (length : Nat) : Prop where
  tag_le : tag.toNat ≤ 0x7fff
  length_lt : length < BigEndian.capacity (lengthWidth tag wide)

/-- Which lengths an element of a scope run may have. -/
def ScopeAllows (tag : UInt16) (length : Nat) : Prop :=
  match tag.toNat with
  | 0 => False
  | 1 => length = 8
  | 2 => length = 18
  | _ => True

/-- Which lengths an event element may have if attached data has at most `limit` bytes. -/
def EventAllows (limit : Nat) (tag : UInt16) (length : Nat) : Prop :=
  match tag.toNat with
  | 1 => length = 49
  | 2 => length = 6
  | 3 => 4 ≤ length ∧ length - 4 ≤ limit
  | 4 => length = 0
  | 5 => length = 0
  | 6 => length = 24
  | _ => True

/-- An element as it is written. -/
structure Element where
  tag : UInt16
  /-- The last bit of the control word. -/
  wide : Bool
  payload : List UInt8

namespace Element

def bytes (e : Element) : List UInt8 := head e.tag e.wide e.payload.length ++ e.payload

/-- The bytes of the element say its tag and its length. -/
def Fits (e : Element) : Prop := HeadFits e.tag e.wide e.payload.length

/-- The element may stand in a scope run. -/
def InScope (e : Element) : Prop := ScopeAllows e.tag e.payload.length

/-- The element may stand in the place of an event if attached data has at most `limit` bytes. -/
def InEvent (limit : Nat) (e : Element) : Prop := EventAllows limit e.tag e.payload.length

/-- A scope after one more element of its run. -/
def intoScope (scope : Scope) (e : Element) : Scope :=
  match e.tag.toNat with
  | 1 => scope.withSimulation (word64 e.payload 0)
  | 2 => scope.withNode (word16 e.payload 16) (nodeTime e.payload 0)
  | _ => scope.withUnknown

/-- The event that the element reports. -/
def event (e : Element) : Event :=
  match e.tag.toNat with
  | 1 => .monitorCreate ⟨nodeTime e.payload 0, nodeTime e.payload 16, nodeTime e.payload 32, word8 e.payload 48⟩
  | 2 => .monitorState ⟨word16 e.payload 0, word16 e.payload 2, word16 e.payload 4⟩
  | 3 => .monitorData ⟨word16 e.payload 0, word16 e.payload 2, e.payload.drop 4⟩
  | 4 => .nodeCreate
  | 5 => .nodeDestroy
  | 6 => .nodePosition ⟨double e.payload 0, double e.payload 8, double e.payload 16⟩
  | _ => .unknown e.tag (UInt32.ofNat e.payload.length)

end Element

/-- The scope that a run of elements adds up to. -/
def scope (run : List Element) : Scope := run.foldl Element.intoScope {}

/-- The separator behind a scope run: a control word with tag 0. -/
def separator (closing : Bool) : List UInt8 := BigEndian.ofNat 2 closing.toNat

/-! ## Frames and traces -/

/-- A frame as it is written. -/
structure Frame where
  scopes : List Element
  /-- The last bit of the separator. -/
  closing : Bool
  event : Element

namespace Frame

def bytes (f : Frame) : List UInt8 := f.scopes.flatMap Element.bytes ++ separator f.closing ++ f.event.bytes

/-- The frame is allowed if attached data has at most `limit` bytes. -/
structure WellFormed (limit : Nat) (f : Frame) : Prop where
  scopes : ∀ e ∈ f.scopes, e.Fits ∧ e.InScope
  event_fits : f.event.Fits
  event_allowed : f.event.InEvent limit

/-- What the frame says. -/
def meaning (f : Frame) : NodeTrace.Frame := ⟨scope f.scopes, f.event.event⟩

end Frame

/-- The header of a trace: two magic words, major version 1 and a minor version. -/
def header (minor : UInt32) : List UInt8 :=
  BigEndian.ofNat 4 0x63746b74 ++ BigEndian.ofNat 4 0x72616365 ++ BigEndian.ofNat 4 1 ++
    BigEndian.ofNat 4 minor.toNat

/-! ## The scope of a run -/

theorem scope_nil : scope [] = {} := rfl

theorem scope_concat (run : List Element) (e : Element) : scope (run ++ [e]) = e.intoScope (scope run) := by
  simp [scope, List.foldl_append]

theorem filter_concat_getLast? {α : Type} (p : α → Bool) (xs : List α) (x : α) :
    ((xs ++ [x]).filter p).getLast? = if p x then some x else (xs.filter p).getLast? := by
  rw [List.filter_append]
  by_cases h : p x = true
  · rw [if_pos h, List.filter_cons_of_pos h, List.filter_nil, List.getLast?_append]; rfl
  · rw [if_neg h, List.filter_cons_of_neg h, List.filter_nil, List.append_nil]

/-- The last simulation element of a run counts. -/
theorem scope_simulation (run : List Element) :
    (scope run).simulation? =
      (run.filter (·.tag.toNat = 1)).getLast?.map fun e => word64 e.payload 0 := by
  induction run using List.reverseRecOn with
  | nil => rfl
  | append_singleton run e ih =>
    rw [scope_concat, filter_concat_getLast?]
    unfold Element.intoScope
    split
    · rename_i h
      rw [if_pos (decide_eq_true h)]; rfl
    · rename_i h
      rw [if_neg (by rw [h]; decide), ← ih]; rfl
    · rename_i h1 h2
      rw [if_neg (by simpa using h1), ← ih]; rfl

/-- The last node element of a run counts. -/
theorem scope_node (run : List Element) :
    (scope run).node? =
      (run.filter (·.tag.toNat = 2)).getLast?.map fun e => (word16 e.payload 16, nodeTime e.payload 0) := by
  induction run using List.reverseRecOn with
  | nil => rfl
  | append_singleton run e ih =>
    rw [scope_concat, filter_concat_getLast?]
    unfold Element.intoScope
    split
    · rename_i h
      rw [if_neg (by rw [h]; decide), ← ih]; rfl
    · rename_i h
      rw [if_pos (decide_eq_true h)]; rfl
    · rename_i h1 h2
      rw [if_neg (by simpa using h2), ← ih]; rfl

/-- A scope is marked as soon as one element of its run has a tag without a meaning. -/
theorem scope_unknown (run : List Element) :
    (scope run).kinds.unknown = true ↔ ∃ e ∈ run, e.tag.toNat ≠ 1 ∧ e.tag.toNat ≠ 2 := by
  induction run using List.reverseRecOn with
  | nil => simp [scope_nil]
  | append_singleton run e ih =>
    rw [scope_concat]
    simp only [List.mem_append, List.mem_singleton, or_and_right, exists_or, exists_eq_left]
    unfold Element.intoScope
    split
    · rename_i h
      rw [← ih]
      exact ⟨.inl, fun h' => h'.resolve_right fun hne => hne.1 h⟩
    · rename_i h
      rw [← ih]
      exact ⟨.inl, fun h' => h'.resolve_right fun hne => hne.2 h⟩
    · rename_i h1 h2
      exact ⟨fun _ => .inr ⟨h1, h2⟩, fun _ => rfl⟩

end NodeTrace.Written
