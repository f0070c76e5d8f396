import NodeTrace.Encoder
import NodeTrace.Proofs.Sinks
import NodeTrace.Proofs.Written

/-!
# Encoding writes frames of the grammar

A scope is written as the elements `Written.ofScope`, an event as the element `Written.ofEvent`, both with the
shortest length field: the writes that a step is made of come to one write of these bytes (`Sink.putScope_eq`,
`Sink.putEvent_eq`).  A step is refused where the format cannot say what it asks for, and then the refusal comes before
the first write.  The elements are allowed, and they mean the scope without what its kinds do not count
(`scope_ofScope`) and the event itself (`event_ofEvent`).
-/

namespace NodeTrace

/-- The scope without the mark of unknown elements and without the fields that its kinds do not count. -/
def Scope.normal (s : Scope) : Scope where
  kinds := { s.kinds with unknown := false }
  simMicros := if s.kinds.simulation then s.simMicros else 0
  nodeId := if s.kinds.node then s.nodeId else 0
  nodeTime := if s.kinds.node then s.nodeTime else {}

/-- The frame as it comes back when it is written and read. -/
def Frame.normal (f : Frame) : Frame := ⟨f.scope.normal, f.event⟩

/-- An event without a meaning keeps clear of the tags with one, and attached data fits a length field and the
limit. -/
def Event.Writable (limit : Nat) : Event → Prop
  | .unknown tag _ => 7 ≤ tag.toNat ∧ tag.toNat ≤ 0x7fff
  | .monitorData a => a.payload.length + 4 < UInt32.size ∧ a.payload.length ≤ limit
  | _ => True

/-! ## Bytes and refusals -/

namespace Encode

/-- Cycles, then milliseconds. -/
def nodeTime (t : NodeTime) : List UInt8 := word64 t.cycles ++ double t.millis

/-- The header of a trace. -/
def header (h : TraceHeader) : List UInt8 :=
  word32 Format.magic.1 ++ (word32 Format.magic.2 ++ (word32 h.major ++ word32 h.minor))

end Encode

namespace Sink.WriteStep

/-- The tag is that of the separator, or too large for a control word. -/
def BadTag (tag : UInt16) : Prop := tag.toNat = 0 ∨ 0x7fff < tag.toNat

/-- The step asks for what the format cannot say: an element or an event without a meaning under a bad tag, or a payload
that is longer than a length field can say. -/
def Refused : WriteStep → Prop
  | .event (.unknown tag _) => BadTag tag
  | .event (.monitorData a) => UInt32.size ≤ a.payload.length + 4
  | .element tag payload => BadTag tag ∨ UInt32.size ≤ payload.length
  | _ => False

theorem BadTag.ne_zero {tag : UInt16} (h : ¬BadTag tag) : tag ≠ 0 := fun h0 => h (.inl (by rw [h0]; rfl))

theorem BadTag.le {tag : UInt16} (h : ¬BadTag tag) : tag.toNat ≤ 0x7fff := Nat.le_of_not_lt (not_or.1 h).2

theorem badTag_iff {tag : UInt16} : tag = Format.separatorTag ∨ Format.maxTag < tag ↔ BadTag tag :=
  or_congr UInt16.toNat_inj.symm UInt16.lt_iff_toNat_lt

end Sink.WriteStep

theorem Event.Writable.not_refused {limit : Nat} {ev : Event} (h : ev.Writable limit) :
    ¬(Sink.WriteStep.event ev).Refused := by
  cases ev with
  | unknown tag length =>
    rintro (h0 | hmax)
    · have hge := h.1
      omega
    · exact absurd h.2 (Nat.not_le_of_lt hmax)
  | monitorData a => exact Nat.not_le_of_lt h.1
  | _ => exact id

namespace Written

/-! ## Reading back what was written -/

theorem length_word8 (w : UInt8) : (Encode.word8 w).length = 1 := BigEndian.length_ofNat _ _

theorem length_word16 (w : UInt16) : (Encode.word16 w).length = 2 := BigEndian.length_ofNat _ _

theorem length_word64 (w : UInt64) : (Encode.word64 w).length = 8 := BigEndian.length_ofNat _ _

theorem length_double (x : Binary64) : (Encode.double x).length = 8 := BigEndian.length_ofNat _ _

theorem length_nodeTime (t : NodeTime) : (Encode.nodeTime t).length = 16 := by
  rw [Encode.nodeTime, List.length_append, length_double, length_word64]

section Numbers

variable {before : List UInt8} {start : Nat}

theorem word8_written (hs : before.length = start) (w : UInt8) (behind : List UInt8) :
    word8 (before ++ (Encode.word8 w ++ behind)) start = w := by
  have h := number_ofNat hs (show w.toNat < BigEndian.capacity 1 from w.toNat_lt) behind
  rw [word8, Encode.word8, h, UInt8.ofNat_toNat]

theorem word16_written (hs : before.length = start) (w : UInt16) (behind : List UInt8) :
    word16 (before ++ (Encode.word16 w ++ behind)) start = w := by
  have h := number_ofNat hs (show w.toNat < BigEndian.capacity 2 from w.toNat_lt) behind
  rw [word16, Encode.word16, h, UInt16.ofNat_toNat]

theorem word64_written (hs : before.length = start) (w : UInt64) (behind : List UInt8) :
    word64 (before ++ (Encode.word64 w ++ behind)) start = w := by
  have h := number_ofNat hs (show w.toNat < BigEndian.capacity 8 from w.toNat_lt) behind
  rw [word64, Encode.word64, h, UInt64.ofNat_toNat]

theorem double_written (hs : before.length = start) (x : Binary64) (behind : List UInt8) :
    double (before ++ (Encode.double x ++ behind)) start = x := by
  rw [double, Encode.double, word64_written hs]

theorem nodeTime_written (hs : before.length = start) (t : NodeTime) (behind : List UInt8) :
    nodeTime (before ++ (Encode.nodeTime t ++ behind)) start = t := by
  have hcycles := word64_written hs t.cycles (Encode.double t.millis ++ behind)
  have hmid : (before ++ Encode.word64 t.cycles).length = start + 8 := by
    rw [List.length_append, hs, length_word64]
  have hmillis := double_written hmid t.millis behind
  rw [List.append_assoc] at hmillis
  rw [nodeTime, Encode.nodeTime, List.append_assoc, hcycles, hmillis]

end Numbers

/-! ## Elements with the shortest length field -/

/-- The element with a length field of four bytes only if one byte cannot say the length. -/
def Element.shortest (tag : UInt16) (payload : List UInt8) : Element := ⟨tag, 256 ≤ payload.length, payload⟩

theorem Element.shortest_fits {tag : UInt16} (htag : tag.toNat ≤ 0x7fff) (h0 : tag ≠ 0) {payload : List UInt8}
    (hn : payload.length < UInt32.size) : (Element.shortest tag payload).Fits := by
  refine ⟨htag, ?_⟩
  show payload.length < BigEndian.capacity (lengthWidth tag (256 ≤ payload.length))
  unfold lengthWidth
  rw [if_neg h0]
  by_cases hlt : payload.length < 256
  · rw [decide_eq_false (Nat.not_le_of_lt hlt)]
    exact hlt
  · rw [decide_eq_true (Nat.le_of_not_lt hlt)]
    exact hn

/-! ## Scopes -/

def simulationElement (micros : UInt64) : Element := .shortest Format.simulationTag (Encode.word64 micros)

def nodeElement (id : UInt16) (time : NodeTime) : Element :=
  .shortest Format.nodeTag (Encode.nodeTime time ++ Encode.word16 id)

/-- The elements as which a scope is written. -/
def ofScope (s : Scope) : List Element :=
  (s.simulation?.map simulationElement).toList ++ (s.node?.map fun (id, time) => nodeElement id time).toList

theorem length_nodePayload (id : UInt16) (time : NodeTime) :
    (Encode.nodeTime time ++ Encode.word16 id).length = 18 := by
  rw [List.length_append, length_nodeTime, length_word16]

/-- The elements of a scope are allowed in a run. -/
theorem ofScope_allowed (s : Scope) : ∀ e ∈ ofScope s, e.Fits ∧ e.InScope := by
  intro e he
  rcases List.mem_append.1 he with he | he
  · obtain ⟨micros, -, rfl⟩ := Option.map_eq_some_iff.1 (Option.mem_toList.1 he)
    have hlen := length_word64 micros
    exact ⟨Element.shortest_fits (by decide) (by decide) (by rw [hlen]; decide), hlen⟩
  · obtain ⟨⟨id, time⟩, -, rfl⟩ := Option.map_eq_some_iff.1 (Option.mem_toList.1 he)
    have hlen := length_nodePayload id time
    exact ⟨Element.shortest_fits (by decide) (by decide) (by rw [hlen]; decide), hlen⟩

theorem intoScope_simulationElement (scope : Scope) (micros : UInt64) :
    (simulationElement micros).intoScope scope = scope.withSimulation micros := by
  have h : word64 (Encode.word64 micros ++ []) 0 = micros := word64_written List.length_nil micros []
  rw [List.append_nil] at h
  show scope.withSimulation (word64 (Encode.word64 micros) 0) = _
  rw [h]

theorem intoScope_nodeElement (scope : Scope) (id : UInt16) (time : NodeTime) :
    (nodeElement id time).intoScope scope = scope.withNode id time := by
  have htime : nodeTime (Encode.nodeTime time ++ Encode.word16 id) 0 = time :=
    nodeTime_written List.length_nil time _
  have hid := word16_written (length_nodeTime time) id []
  rw [List.append_nil] at hid
  show scope.withNode (word16 (Encode.nodeTime time ++ Encode.word16 id) 16)
    (nodeTime (Encode.nodeTime time ++ Encode.word16 id) 0) = _
  rw [htime, hid]

/-- The elements of a scope add up to the scope in its normal form. -/
theorem scope_ofScope (s : Scope) : scope (ofScope s) = s.normal := by
  obtain ⟨⟨unknown, simulation, node⟩, micros, id, time⟩ := s
  cases simulation <;> cases node <;>
    simp [scope, ofScope, Scope.simulation?, Scope.node?, Scope.normal, Scope.withSimulation, Scope.withNode,
      intoScope_simulationElement, intoScope_nodeElement]

/-! ## Events -/

/-- The tag with which an event is written. -/
def tagOf : Event → UInt16
  | .unknown tag _ => tag
  | .monitorCreate _ => Format.monitorCreateTag
  | .monitorState _ => Format.monitorStateTag
  | .monitorData _ => Format.monitorDataTag
  | .nodeCreate => Format.nodeCreateTag
  | .nodeDestroy => Format.nodeDestroyTag
  | .nodePosition _ => Format.nodePositionTag

/-- The payload with which an event is written. -/
def payloadOf : Event → List UInt8
  | .unknown _ length => List.replicate length.toNat 0
  | .monitorCreate c => Encode.nodeTime c.stateOffset ++ (Encode.nodeTime c.dataOffset ++
      (Encode.nodeTime c.byteOffset ++ Encode.word8 c.byteOrder))
  | .monitorState c => Encode.word16 c.context ++ (Encode.word16 c.entity ++ Encode.word16 c.state)
  | .monitorData a => Encode.word16 a.context ++ (Encode.word16 a.entity ++ a.payload)
  | .nodeCreate => []
  | .nodeDestroy => []
  | .nodePosition p => Encode.double p.x ++ (Encode.double p.y ++ Encode.double p.z)

/-- The element as which an event is written. -/
def ofEvent (ev : Event) : Element := .shortest (tagOf ev) (payloadOf ev)

section Event

variable {limit : Nat} {ev : Event}

theorem not_badTag_tagOf (h : ¬(Sink.WriteStep.event ev).Refused) : ¬Sink.WriteStep.BadTag (tagOf ev) := by
  cases ev with
  | unknown tag length => exact h
  | _ =>
    dsimp only [tagOf]
    unfold Sink.WriteStep.BadTag
    decide

theorem length_two_words (v w : UInt16) : (Encode.word16 v ++ Encode.word16 w).length = 4 := by
  rw [List.length_append, length_word16, length_word16]

theorem length_two_doubles (x y : Binary64) : (Encode.double x ++ Encode.double y).length = 16 := by
  rw [List.length_append, length_double, length_double]

theorem length_two_nodeTimes (t u : NodeTime) : (Encode.nodeTime t ++ Encode.nodeTime u).length = 32 := by
  rw [List.length_append, length_nodeTime, length_nodeTime]

theorem length_three_nodeTimes (t u v : NodeTime) :
    (Encode.nodeTime t ++ Encode.nodeTime u ++ Encode.nodeTime v).length = 48 := by
  rw [List.length_append, length_two_nodeTimes, length_nodeTime]

theorem length_calibration (c : Calibration) : (payloadOf (.monitorCreate c)).length = 49 := by
  simp [payloadOf, length_nodeTime, length_word8]

theorem length_stateChange (c : StateChange) : (payloadOf (.monitorState c)).length = 6 := by
  simp [payloadOf, length_word16]

theorem length_attachment (a : Attachment) : (payloadOf (.monitorData a)).length = a.payload.length + 4 := by
  simp [payloadOf, length_word16]
  omega

theorem length_position (p : Position) : (payloadOf (.nodePosition p)).length = 24 := by
  simp [payloadOf, length_double]

theorem length_payloadOf (h : ¬(Sink.WriteStep.event ev).Refused) : (payloadOf ev).length < UInt32.size := by
  cases ev with
  | unknown tag length => rw [payloadOf, List.length_replicate]; exact length.toNat_lt
  | monitorCreate c => rw [length_calibration]; decide
  | monitorState c => rw [length_stateChange]; decide
  | monitorData a => rw [length_attachment]; exact Nat.lt_of_not_le h
  | nodeCreate => decide
  | nodeDestroy => decide
  | nodePosition p => rw [length_position]; decide

/-- The element of an event is allowed in its place. -/
theorem ofEvent_allowed (h : ev.Writable limit) : (ofEvent ev).Fits ∧ (ofEvent ev).InEvent limit := by
  have hgood := not_badTag_tagOf h.not_refused
  refine ⟨Element.shortest_fits (Sink.WriteStep.BadTag.le hgood) (Sink.WriteStep.BadTag.ne_zero hgood)
    (length_payloadOf h.not_refused), ?_⟩
  show EventAllows limit (tagOf ev) (payloadOf ev).length
  cases ev with
  | unknown tag length =>
    have hge := h.1
    unfold EventAllows
    rw [show tagOf (.unknown tag length) = tag from rfl]
    split
    all_goals first | trivial | omega
  | monitorCreate c => exact length_calibration c
  | monitorState c => exact length_stateChange c
  | monitorData a =>
    rw [length_attachment]
    exact ⟨Nat.le_add_left 4 _, h.2⟩
  | nodeCreate => rfl
  | nodeDestroy => rfl
  | nodePosition p => exact length_position p

/-- The element of an event reports the event. -/
theorem event_ofEvent (h : ev.Writable limit) : (ofEvent ev).event = ev := by
  cases ev with
  | unknown tag length =>
    have hge := h.1
    show Element.event ⟨tag, _, List.replicate length.toNat 0⟩ = _
    unfold Element.event
    dsimp only
    split
    all_goals first | omega | skip
    rw [List.length_replicate, UInt32.ofNat_toNat]
  | monitorCreate c =>
    have hstate : nodeTime (payloadOf (.monitorCreate c)) 0 = c.stateOffset :=
      nodeTime_written List.length_nil _ _
    have hdata : nodeTime (payloadOf (.monitorCreate c)) 16 = c.dataOffset :=
      nodeTime_written (length_nodeTime _) _ _
    have hbyte := nodeTime_written (length_two_nodeTimes c.stateOffset c.dataOffset) c.byteOffset
      (Encode.word8 c.byteOrder)
    have horder := word8_written (length_three_nodeTimes c.stateOffset c.dataOffset c.byteOffset) c.byteOrder []
    rw [List.append_assoc] at hbyte
    rw [List.append_nil, List.append_assoc, List.append_assoc] at horder
    show Event.monitorCreate ⟨nodeTime (payloadOf (.monitorCreate c)) 0, nodeTime (payloadOf (.monitorCreate c)) 16,
      nodeTime (payloadOf (.monitorCreate c)) 32, word8 (payloadOf (.monitorCreate c)) 48⟩ = _
    rw [hstate, hdata, payloadOf, hbyte, horder]
  | monitorState c =>
    have hcontext : word16 (payloadOf (.monitorState c)) 0 = c.context := word16_written List.length_nil _ _
    have hentity : word16 (payloadOf (.monitorState c)) 2 = c.entity := word16_written (length_word16 _) _ _
    have hstate := word16_written (length_two_words c.context c.entity) c.state []
    rw [List.append_nil, List.append_assoc] at hstate
    show Event.monitorState ⟨word16 (payloadOf (.monitorState c)) 0, word16 (payloadOf (.monitorState c)) 2,
      word16 (payloadOf (.monitorState c)) 4⟩ = _
    rw [hcontext, hentity, payloadOf, hstate]
  | monitorData a =>
    have hcontext : word16 (payloadOf (.monitorData a)) 0 = a.context := word16_written List.length_nil _ _
    have hentity : word16 (payloadOf (.monitorData a)) 2 = a.entity := word16_written (length_word16 _) _ _
    have hpayload : ((Encode.word16 a.context ++ Encode.word16 a.entity) ++ a.payload).drop 4 = a.payload :=
      List.drop_left' (length_two_words a.context a.entity)
    rw [List.append_assoc] at hpayload
    show Event.monitorData ⟨word16 (payloadOf (.monitorData a)) 0, word16 (payloadOf (.monitorData a)) 2,
      (payloadOf (.monitorData a)).drop 4⟩ = _
    rw [hcontext, hentity, payloadOf, hpayload]
  | nodeCreate => rfl
  | nodeDestroy => rfl
  | nodePosition p =>
    have hx : double (payloadOf (.nodePosition p)) 0 = p.x := double_written List.length_nil _ _
    have hy : double (payloadOf (.nodePosition p)) 8 = p.y := double_written (length_double _) _ _
    have hz := double_written (length_two_doubles p.x p.y) p.z []
    rw [List.append_nil, List.append_assoc] at hz
    show Event.nodePosition ⟨double (payloadOf (.nodePosition p)) 0, double (payloadOf (.nodePosition p)) 8,
      double (payloadOf (.nodePosition p)) 16⟩ = _
    rw [hx, hy, payloadOf, hz]

end Event

end Written

/-! ## Steps as one write -/

namespace Sink

open Written

/-- A bad tag is refused before the control word is written. -/
theorem putElementHeader_of_badTag {tag : UInt16} (h : WriteStep.BadTag tag) (length : UInt32) :
    putElementHeader tag length =
      throw (.invalidInput ("invalid element type tag " ++ Digits.decimal tag.toNat)) :=
  if_pos (WriteStep.badTag_iff.2 h)

/-- Under any other tag control word and length field are written. -/
theorem putElementHeader_of_not_badTag {tag : UInt16} (h : ¬WriteStep.BadTag tag) (length : UInt32) :
    putElementHeader tag length = put (head tag (256 ≤ length.toNat) length.toNat) := by
  have hle := WriteStep.BadTag.le h
  have hdouble : (tag * 2).toNat = tag.toNat * 2 := by
    rw [UInt16.toNat_mul]
    exact Nat.mod_eq_of_lt (show tag.toNat * 2 < 65536 by omega)
  have hodd : (tag * 2 + 1).toNat = tag.toNat * 2 + 1 := by
    rw [UInt16.toNat_add, hdouble]
    exact Nat.mod_eq_of_lt (show tag.toNat * 2 + 1 < 65536 by omega)
  unfold putElementHeader head lengthWidth
  rw [if_neg fun hbad => h (WriteStep.badTag_iff.1 hbad), if_neg (WriteStep.BadTag.ne_zero h), put_append]
  by_cases hlt : length < 256
  · have hshort : length.toNat < 256 := UInt32.lt_iff_toNat_lt.1 hlt
    have hbyte : length.toUInt8.toNat = length.toNat := by
      rw [UInt32.toNat_toUInt8]
      exact Nat.mod_eq_of_lt hshort
    rw [if_pos hlt, decide_eq_false (Nat.not_le_of_lt hshort), Encode.word16, Encode.word8, hdouble, hbyte]
    rfl
  · have hlong : 256 ≤ length.toNat := Nat.le_of_not_lt fun h => hlt (UInt32.lt_iff_toNat_lt.2 h)
    rw [if_neg hlt, decide_eq_true hlong, Encode.word16, Encode.word32, hodd]
    rfl

/-- Header and payload of an element are written as the element. -/
theorem putElementHeader_bind {tag : UInt16} (h : ¬WriteStep.BadTag tag) {length : UInt32} {payload : List UInt8}
    (hlength : length.toNat = payload.length) :
    (putElementHeader tag length >>= fun _ => put payload) = put (Element.shortest tag payload).bytes := by
  rw [putElementHeader_of_not_badTag h, hlength, ← put_append]
  rfl

/-- The same of an element without a payload. -/
theorem putElementHeader_eq {tag : UInt16} (h : ¬WriteStep.BadTag tag) :
    putElementHeader tag 0 = put (Element.shortest tag []).bytes := by
  rw [putElementHeader_of_not_badTag h]
  exact congrArg put (List.append_nil _).symm

theorem putHeader_eq (h : TraceHeader) : putHeader h = put (Encode.header h) := by
  unfold putHeader Encode.header
  rw [put_append, put_append, put_append]
  simp

theorem putNodeTime_eq (t : NodeTime) : putNodeTime t = put (Encode.nodeTime t) := (put_append _ _).symm

theorem putSimulation_eq (simulation? : Option UInt64) :
    putSimulation simulation? = put ((simulation?.map simulationElement).toList.flatMap Element.bytes) := by
  cases simulation? with
  | none => exact put_nil.symm
  | some micros =>
    show _ = put ((simulationElement micros).bytes ++ [])
    rw [List.append_nil]
    exact putElementHeader_bind (by unfold WriteStep.BadTag; decide) (length_word64 micros).symm

theorem putNode_eq (node? : Option (UInt16 × NodeTime)) :
    putNode node? = put ((node?.map fun (id, time) => nodeElement id time).toList.flatMap Element.bytes) := by
  rcases node? with _ | ⟨id, time⟩
  · exact put_nil.symm
  · show _ = put ((nodeElement id time).bytes ++ [])
    have hbody : (do putNodeTime time; put (Encode.word16 id)) = put (Encode.nodeTime time ++ Encode.word16 id) := by
      rw [putNodeTime_eq, put_append]
    rw [List.append_nil, putNode, hbody]
    exact putElementHeader_bind (by unfold WriteStep.BadTag; decide) (length_nodePayload id time).symm

/-- A scope is written as its elements and a separator. -/
theorem putScope_eq (s : Scope) : putScope s = put ((ofScope s).flatMap Element.bytes ++ separator false) := by
  unfold putScope ofScope
  rw [putSimulation_eq, putNode_eq, List.flatMap_append, put_append, put_append, bind_assoc]
  rfl

theorem lengthField_of_lt {n : Nat} (h : n < UInt32.size) : lengthField n = pure (UInt32.ofNat n) := if_pos h

theorem lengthField_of_le {n : Nat} (h : UInt32.size ≤ n) :
    lengthField n = throw (.invalidInput "payload too large") := if_neg (Nat.not_lt_of_le h)

/-- An event that is not refused is written as its element. -/
theorem putEvent_eq {ev : Event} (h : ¬(WriteStep.event ev).Refused) : putEvent ev = put (ofEvent ev).bytes := by
  have hgood := not_badTag_tagOf h
  have hlength := length_payloadOf h
  unfold ofEvent
  cases ev with
  | unknown tag length =>
    rw [putEvent, putZeros_eq_put]
    exact putElementHeader_bind hgood List.length_replicate.symm
  | monitorCreate c =>
    have hsize : Format.monitorCreateSize.toNat = (payloadOf (.monitorCreate c)).length := (length_calibration c).symm
    rw [← putElementHeader_bind hgood hsize, payloadOf, put_append, put_append, put_append]
    simp only [putEvent, putNodeTime_eq]
    rfl
  | monitorState c =>
    have hsize : Format.monitorStateSize.toNat = (payloadOf (.monitorState c)).length := (length_stateChange c).symm
    rw [← putElementHeader_bind hgood hsize, payloadOf, put_append, put_append]
    rfl
  | monitorData a =>
    have hfield : (UInt32.ofNat (a.payload.length + 4)).toNat = (payloadOf (.monitorData a)).length := by
      rw [length_attachment]
      exact UInt32.toNat_ofNat_of_lt' (Nat.lt_of_not_le h)
    have hallowed : lengthField (a.payload.length + Format.attachmentPrefixSize.toNat) =
        pure (UInt32.ofNat (a.payload.length + 4)) := lengthField_of_lt (Nat.lt_of_not_le h)
    rw [← putElementHeader_bind hgood hfield, payloadOf, put_append, put_append, putEvent, hallowed, pure_bind]
    rfl
  | nodeCreate => exact putElementHeader_eq hgood
  | nodeDestroy => exact putElementHeader_eq hgood
  | nodePosition p =>
    have hsize : Format.nodePositionSize.toNat = (payloadOf (.nodePosition p)).length := (length_position p).symm
    rw [← putElementHeader_bind hgood hsize, payloadOf, put_append, put_append]
    rfl

/-- An element that is not refused is written as it is. -/
theorem putElement_eq {tag : UInt16} {payload : List UInt8} (h : ¬(WriteStep.element tag payload).Refused) :
    putElement tag payload = put (Element.shortest tag payload).bytes := by
  obtain ⟨hgood, hlarge⟩ := not_or.1 h
  have hlt := Nat.lt_of_not_le hlarge
  rw [putElement, lengthField_of_lt hlt, pure_bind]
  exact putElementHeader_bind hgood (UInt32.toNat_ofNat_of_lt' hlt)

end Sink

end NodeTrace
