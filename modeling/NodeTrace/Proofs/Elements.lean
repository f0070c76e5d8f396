import NodeTrace.Decoder.Frame
import NodeTrace.Proofs.Steps
import NodeTrace.Proofs.Written

/-!
# Decoding reads the elements that are written

Control word and length field are read as tag and length (`reads_elementHeader_iff`).  Behind a header, the payload
of a scope element or of an event element has a fixed width: that of the header if the grammar allows it, and then
the payload is read as what it means; else the element is refused.
-/

namespace NodeTrace.Decode

open Written (HeadFits ScopeAllows EventAllows)

variable {α β : Type}

/-! ## Element headers -/

theorem fixed_nodeTime : Fixed 16 nodeTime fun w => .ok (Written.nodeTime w 0) :=
  fixed_word64.bind fun _ => fixed_double.bind fun _ => fixed_pure _

theorem fixed_lengthField (wide : Bool) :
    Fixed (if wide then 4 else 1) (lengthField wide) fun w => .ok (UInt32.ofNat (BigEndian.toNat w)) := by
  cases wide with
  | true => exact fixed_word32
  | false =>
    refine (fixed_word8.map UInt8.toUInt32).congr fun w hw => ?_
    have hlt := BigEndian.toNat_lt w
    rw [hw] at hlt
    have hlt : BigEndian.toNat w < 256 := hlt
    show Except.ok _ = Except.ok _
    congr 1
    apply UInt32.toNat_inj.1
    rw [UInt8.toNat_toUInt32, UInt8.toNat_ofNat', UInt32.toNat_ofNat']
    omega

/-- The control word comes apart into the tag and its last bit. -/
theorem control_eq (control : UInt16) :
    (control / 2).toNat * 2 + (decide (control % 2 = 1)).toNat = control.toNat := by
  have hmod : (control % 2).toNat = control.toNat % 2 := UInt16.toNat_mod control 2
  have hdiv : (control / 2).toNat = control.toNat / 2 := UInt16.toNat_div control 2
  rw [hdiv]
  by_cases h : control % 2 = 1
  · have hone : (control % 2).toNat = 1 := by rw [h]; rfl
    rw [decide_eq_true h]
    simp only [Bool.toNat_true]
    omega
  · have hone : (control % 2).toNat ≠ 1 := fun h' => h (UInt16.toNat_inj.1 h')
    rw [decide_eq_false h]
    simp only [Bool.toNat_false]
    omega

theorem control_lt {tag : UInt16} (h : tag.toNat ≤ 0x7fff) (wide : Bool) :
    tag.toNat * 2 + wide.toNat < BigEndian.capacity 2 := by
  have hw := wide.toNat_lt
  show _ < 65536
  omega

theorem control_ofNat {tag : UInt16} (h : tag.toNat ≤ 0x7fff) (wide : Bool) :
    UInt16.ofNat (tag.toNat * 2 + wide.toNat) / 2 = tag ∧
      decide (UInt16.ofNat (tag.toNat * 2 + wide.toNat) % 2 = 1) = wide := by
  have hlt : tag.toNat * 2 + wide.toNat < 65536 := control_lt h wide
  have hn : (UInt16.ofNat (tag.toNat * 2 + wide.toNat)).toNat = tag.toNat * 2 + wide.toNat := by
    rw [UInt16.toNat_ofNat']; exact Nat.mod_eq_of_lt hlt
  have hdiv : (UInt16.ofNat (tag.toNat * 2 + wide.toNat) / 2).toNat = tag.toNat := by
    rw [UInt16.toNat_div, hn]
    have hw := wide.toNat_lt
    show (tag.toNat * 2 + wide.toNat) / 2 = tag.toNat
    omega
  have hback := control_eq (UInt16.ofNat (tag.toNat * 2 + wide.toNat))
  rw [hdiv, hn] at hback
  refine ⟨UInt16.toNat_inj.1 hdiv, ?_⟩
  have hbit := Nat.add_left_cancel hback
  generalize decide (UInt16.ofNat (tag.toNat * 2 + wide.toNat) % 2 = 1) = bit at hbit
  cases bit <;> cases wide <;> first | rfl | cases hbit

/-- The step behind the control word of an element. -/
def behindControl (control : UInt16) : Decode ElementHeader :=
  if control / 2 = Format.separatorTag then pure ⟨control / 2, 0⟩
  else (lengthField (control % 2 = 1)).inside >>= fun length => pure ⟨control / 2, length⟩

theorem elementHeader_eq : elementHeader = word16 >>= behindControl := rfl

theorem fixed_behindControl (control : UInt16) :
    Fixed (Written.lengthWidth (control / 2) (control % 2 = 1)) (behindControl control)
      fun w => .ok ⟨control / 2, UInt32.ofNat (BigEndian.toNat w)⟩ := by
  unfold Written.lengthWidth behindControl
  by_cases h : control / 2 = 0
  · rw [if_pos h, if_pos (show control / 2 = Format.separatorTag from h)]
    refine (fixed_pure _).congr fun w hw => ?_
    rw [List.length_eq_zero_iff.1 hw]; rfl
  · rw [if_neg h, if_neg (show ¬ control / 2 = Format.separatorTag from h)]
    refine ((fixed_lengthField _).inside.bind fun length => fixed_pure _).congr fun w hw => ?_
    rw [List.take_of_length_le (by omega)]

/-- Control word and length field, and no other bytes, are read as tag and length. -/
theorem reads_elementHeader_iff {w : List UInt8} {r : Except DecodeError ElementHeader} :
    Reads elementHeader w r ↔
      ∃ tag wide n, HeadFits tag wide n ∧ w = Written.head tag wide n ∧ r = .ok ⟨tag, UInt32.ofNat n⟩ := by
  rw [elementHeader_eq, Fixed.reads_bind_iff fixed_word16 fixed_behindControl]
  constructor
  · rintro ⟨u, v, rfl, hu, hv, rfl⟩
    have hlt := BigEndian.toNat_lt u
    rw [hu] at hlt
    have hlt : BigEndian.toNat u < 65536 := hlt
    have hcontrol : (UInt16.ofNat (BigEndian.toNat u)).toNat = BigEndian.toNat u := by
      rw [UInt16.toNat_ofNat']; exact Nat.mod_eq_of_lt hlt
    have heq := control_eq (UInt16.ofNat (BigEndian.toNat u))
    rw [hcontrol] at heq
    refine ⟨_, decide (UInt16.ofNat (BigEndian.toNat u) % 2 = 1), BigEndian.toNat v, ⟨?_, ?_⟩, ?_, rfl⟩
    · have htag := UInt16.toNat_div (UInt16.ofNat (BigEndian.toNat u)) 2
      rw [hcontrol] at htag
      have htwo : (2 : UInt16).toNat = 2 := rfl
      omega
    · rw [← hv]; exact BigEndian.toNat_lt v
    · rw [Written.head, heq, ← hv, BigEndian.ofNat_toNat, ← hu, BigEndian.ofNat_toNat]
  · rintro ⟨tag, wide, n, ⟨htag, hlen⟩, rfl, rfl⟩
    obtain ⟨hdiv, hmod⟩ := control_ofNat htag wide
    refine ⟨_, _, rfl, BigEndian.length_ofNat _ _, ?_, ?_⟩ <;>
      rw [BigEndian.toNat_ofNat (control_lt htag wide), hdiv]
    · rw [hmod, BigEndian.length_ofNat]
    · rw [BigEndian.toNat_ofNat hlen]

/-! ## Checks -/

section Checks

variable {f : Unit → Decode α}

theorem requireLength_bind (element : String) (found expected : UInt32) :
    requireLength element found expected >>= f =
      if found = expected then f () else throw (.inconsistentLength element (.exactly expected) found) := by
  unfold requireLength
  split <;> rfl

theorem requireLength_refuses {element : String} {found expected : UInt32} (h : found.toNat ≠ expected.toNat) :
    Fixed 0 (requireLength element found expected >>= f)
      fun _ => .error (.inconsistentLength element (.exactly expected) found) := by
  rw [requireLength_bind, if_neg (fun h' => h (by rw [h']))]
  exact fixed_throw ⟨nofun, nofun⟩

theorem requireAtLeast_bind (element : String) (found least : UInt32) :
    requireAtLeast element found least >>= f =
      if least ≤ found then f () else throw (.inconsistentLength element (.atLeast least) found) := by
  unfold requireAtLeast
  split <;> rfl

theorem requireWithin_bind (limit size : Nat) :
    requireWithin limit size >>= f = if size ≤ limit then f () else throw (.payloadTooLarge size limit) := by
  unfold requireWithin
  split <;> rfl

end Checks

/-! ## Scope elements -/

/-- A scope element of an allowed length adds its payload to the scope. -/
theorem fixed_scopeElement {h : ElementHeader} (hh : ScopeAllows h.tag h.length.toNat) (wide : Bool)
    (scope : Scope) :
    Fixed h.length.toNat (scopeElement h scope) fun w => .ok (Written.Element.intoScope scope ⟨h.tag, wide, w⟩) := by
  obtain ⟨tag, length⟩ := h
  unfold ScopeAllows at hh
  unfold scopeElement Written.Element.intoScope
  dsimp only at hh ⊢
  split at hh
  · cases hh
  · rename_i htag
    obtain rfl : tag = Format.simulationTag := UInt16.toNat_inj.1 htag
    obtain rfl : length = Format.simulationSize := UInt32.toNat_inj.1 hh
    rw [if_pos rfl, requireLength_bind, if_pos rfl]
    exact fixed_word64.bind fun _ => fixed_pure _
  · rename_i htag
    obtain rfl : tag = Format.nodeTag := UInt16.toNat_inj.1 htag
    obtain rfl : length = Format.nodeSize := UInt32.toNat_inj.1 hh
    rw [if_neg (by decide), if_pos rfl, requireLength_bind, if_pos rfl]
    refine (fixed_nodeTime.bind fun _ => fixed_word16.bind fun _ => fixed_pure _).congr fun w hw => ?_
    rw [Written.nodeTime_take (by omega)]
    rfl
  · rename_i h0 h1 h2
    rw [if_neg (fun h => h1 (by rw [h]; rfl)), if_neg (fun h => h2 (by rw [h]; rfl))]
    refine (((fixed_skip _).bind fun _ => fixed_pure _).noted _ _).congr fun w hw => ?_
    split
    · contradiction
    · contradiction
    · rfl

/-- A scope element of another length is refused before its payload is read. -/
theorem scopeElement_refuses {h : ElementHeader} (h0 : h.tag ≠ 0) (hh : ¬ ScopeAllows h.tag h.length.toNat)
    (scope : Scope) : ∃ element expected,
      Fixed 0 (scopeElement h scope) fun _ => .error (.inconsistentLength element expected h.length) := by
  unfold ScopeAllows at hh
  unfold scopeElement
  split at hh
  · rename_i htag
    exact absurd (UInt16.toNat_inj.1 htag) h0
  · rename_i htag
    have htag : h.tag = Format.simulationTag := UInt16.toNat_inj.1 htag
    rw [if_pos htag]
    exact ⟨_, _, requireLength_refuses hh⟩
  · rename_i htag
    have htag : h.tag = Format.nodeTag := UInt16.toNat_inj.1 htag
    rw [if_neg (by rw [htag]; decide), if_pos htag]
    exact ⟨_, _, requireLength_refuses hh⟩
  · exact absurd trivial hh

theorem regular_scopeElement {h : ElementHeader} (h0 : h.tag ≠ 0) (scope : Scope) :
    Regular (scopeElement h scope) := by
  by_cases hh : ScopeAllows h.tag h.length.toNat
  · exact (fixed_scopeElement hh false scope).regular
  · obtain ⟨element, expected, he⟩ := scopeElement_refuses h0 hh scope
    exact he.regular

theorem toNat_length {tag : UInt16} {wide : Bool} {n : Nat} (h : HeadFits tag wide n) :
    (UInt32.ofNat n).toNat = n := by
  rw [UInt32.toNat_ofNat']
  refine Nat.mod_eq_of_lt (Nat.lt_of_lt_of_le h.length_lt ?_)
  unfold Written.lengthWidth
  split
  · decide
  · split <;> decide

theorem reads_scopeElement {e : Written.Element} (hf : e.Fits) (hs : e.InScope) (scope : Scope) :
    Reads (scopeElement ⟨e.tag, UInt32.ofNat e.payload.length⟩ scope) e.payload (.ok (e.intoScope scope)) := by
  have hlen := toNat_length hf
  have hs : ScopeAllows e.tag (UInt32.ofNat e.payload.length).toNat := by rw [hlen]; exact hs
  exact fixed_scopeElement hs e.wide scope e.payload hlen.symm

theorem scopeElement_of_reads {tag : UInt16} {wide : Bool} {n : Nat} {scope scope' : Scope} {w : List UInt8}
    (hf : HeadFits tag wide n) (h0 : tag ≠ 0)
    (h : Reads (scopeElement ⟨tag, UInt32.ofNat n⟩ scope) w (.ok scope')) :
    w.length = n ∧ ScopeAllows tag n ∧ scope' = Written.Element.intoScope scope ⟨tag, wide, w⟩ := by
  have hlen := toNat_length hf
  by_cases hh : ScopeAllows tag (UInt32.ofNat n).toNat
  · obtain ⟨hw, hr⟩ := (fixed_scopeElement (h := ⟨tag, UInt32.ofNat n⟩) hh wide scope).reads_iff.1 h
    rw [hlen] at hh
    cases hr
    exact ⟨hw.trans hlen, hh, rfl⟩
  · obtain ⟨element, expected, he⟩ := scopeElement_refuses (h := ⟨tag, UInt32.ofNat n⟩) h0 hh scope
    cases (he.reads_iff.1 h).2

/-! ## Event elements -/

theorem kindOfTag_unknown {tag : UInt16} (h1 : tag.toNat ≠ 1) (h2 : tag.toNat ≠ 2) (h3 : tag.toNat ≠ 3)
    (h4 : tag.toNat ≠ 4) (h5 : tag.toNat ≠ 5) (h6 : tag.toNat ≠ 6) : Format.kindOfTag tag = .unknown := by
  unfold Format.kindOfTag
  rw [if_neg (fun h => h1 (by rw [h]; rfl)), if_neg (fun h => h2 (by rw [h]; rfl)),
    if_neg (fun h => h3 (by rw [h]; rfl)), if_neg (fun h => h4 (by rw [h]; rfl)),
    if_neg (fun h => h5 (by rw [h]; rfl)), if_neg (fun h => h6 (by rw [h]; rfl))]

/-- The step behind the header of an element of attached data. -/
theorem eventBody_attachment (limit : Nat) (length : UInt32) :
    eventBody limit ⟨Format.monitorDataTag, length⟩ =
      if Format.attachmentPrefixSize ≤ length then
        word16 >>= fun context => word16 >>= fun entity =>
          if (length - Format.attachmentPrefixSize).toNat ≤ limit then
            take (length - Format.attachmentPrefixSize).toNat >>= fun payload =>
              pure (.monitorData ⟨context, entity, payload⟩)
          else throw (.payloadTooLarge (length - Format.attachmentPrefixSize).toNat limit)
      else throw (.inconsistentLength EventKind.monitorData.name (.atLeast Format.attachmentPrefixSize) length) := by
  unfold eventBody
  rw [show Format.kindOfTag Format.monitorDataTag = .monitorData from rfl]
  dsimp only
  rw [requireAtLeast_bind]
  simp only [requireWithin_bind, buffer_toNat]

theorem fixed_attachment {limit : Nat} {length : UInt32} (hmin : 4 ≤ length.toNat)
    (hmax : length.toNat - 4 ≤ limit) (wide : Bool) :
    Fixed length.toNat (eventBody limit ⟨Format.monitorDataTag, length⟩)
      fun w => .ok (Written.Element.event ⟨Format.monitorDataTag, wide, w⟩) := by
  have hle : Format.attachmentPrefixSize ≤ length := UInt32.le_iff_toNat_le.2 hmin
  have hsize : (length - Format.attachmentPrefixSize).toNat = length.toNat - 4 := UInt32.toNat_sub_of_le _ _ hle
  have hpayload (context entity : UInt16) :
      Fixed (length.toNat - 4) (take (length.toNat - 4) >>= fun payload =>
        (pure (.monitorData ⟨context, entity, payload⟩) : Decode Event))
        fun w => .ok (.monitorData ⟨context, entity, w⟩) :=
    ((fixed_take _).bind fun _ => fixed_pure _).congr fun w hw => by rw [List.take_of_length_le (by omega)]
  rw [eventBody_attachment, if_pos hle, hsize]
  simp only [if_pos hmax]
  have hall := fixed_word16.bind fun context => fixed_word16.bind fun entity => hpayload context entity
  rw [show 2 + (2 + (length.toNat - 4)) = length.toNat by omega] at hall
  refine hall.congr fun w hw => ?_
  rw [List.drop_drop]
  rfl

theorem attachment_tooShort {limit : Nat} {length : UInt32} (hmin : ¬4 ≤ length.toNat) :
    Fixed 0 (eventBody limit ⟨Format.monitorDataTag, length⟩) fun _ =>
      .error (.inconsistentLength EventKind.monitorData.name (.atLeast Format.attachmentPrefixSize) length) := by
  have hle : ¬Format.attachmentPrefixSize ≤ length := fun hle => hmin (UInt32.le_iff_toNat_le.1 hle)
  rw [eventBody_attachment, if_neg hle]
  exact fixed_throw ⟨nofun, nofun⟩

/-- Attached data beyond the limit is refused behind its ids. -/
theorem attachment_tooLarge {limit : Nat} {length : UInt32} (hmin : 4 ≤ length.toNat)
    (hmax : limit < length.toNat - 4) :
    Fixed 4 (eventBody limit ⟨Format.monitorDataTag, length⟩) fun _ =>
      .error (.payloadTooLarge (length.toNat - 4) limit) := by
  have hle : Format.attachmentPrefixSize ≤ length := UInt32.le_iff_toNat_le.2 hmin
  have hsize : (length - Format.attachmentPrefixSize).toNat = length.toNat - 4 := UInt32.toNat_sub_of_le _ _ hle
  rw [eventBody_attachment, if_pos hle, hsize]
  simp only [if_neg (Nat.not_le_of_lt hmax)]
  have hthrow : Fixed 0 (throw (.payloadTooLarge (length.toNat - 4) limit) : Decode Event) _ :=
    fixed_throw ⟨nofun, nofun⟩
  exact fixed_word16.bind fun _ => fixed_word16.bind fun _ => hthrow

/-- An event element of an allowed length is read as the event that it reports. -/
theorem fixed_eventBody {limit : Nat} {h : ElementHeader} (hh : EventAllows limit h.tag h.length.toNat)
    (wide : Bool) :
    Fixed h.length.toNat (eventBody limit h) fun w => .ok (Written.Element.event ⟨h.tag, wide, w⟩) := by
  obtain ⟨tag, length⟩ := h
  unfold EventAllows at hh
  unfold eventBody Written.Element.event
  dsimp only at hh ⊢
  split at hh
  · rename_i htag
    obtain rfl : tag = Format.monitorCreateTag := UInt16.toNat_inj.1 htag
    obtain rfl : length = Format.monitorCreateSize := UInt32.toNat_inj.1 hh
    rw [show Format.kindOfTag Format.monitorCreateTag = .monitorCreate from rfl]
    dsimp only
    rw [requireLength_bind, if_pos rfl]
    refine (fixed_nodeTime.bind fun _ => fixed_nodeTime.bind fun _ => fixed_nodeTime.bind fun _ =>
      fixed_word8.bind fun _ => fixed_pure _).congr fun w hw => ?_
    rw [Written.nodeTime_take (by omega), Written.nodeTime_take (by omega), Written.nodeTime_take (by omega),
      Written.nodeTime_drop, Written.nodeTime_drop, Written.nodeTime_drop, List.drop_drop, List.drop_drop]
    rfl
  · rename_i htag
    obtain rfl : tag = Format.monitorStateTag := UInt16.toNat_inj.1 htag
    obtain rfl : length = Format.monitorStateSize := UInt32.toNat_inj.1 hh
    rw [show Format.kindOfTag Format.monitorStateTag = .monitorState from rfl]
    dsimp only
    rw [requireLength_bind, if_pos rfl]
    refine (fixed_word16.bind fun _ => fixed_word16.bind fun _ => fixed_word16.bind fun _ =>
      fixed_pure _).congr fun w hw => ?_
    rw [List.drop_drop]
    rfl
  · rename_i htag
    obtain rfl : tag = Format.monitorDataTag := UInt16.toNat_inj.1 htag
    exact fixed_attachment hh.1 hh.2 wide
  · rename_i htag
    obtain rfl : tag = Format.nodeCreateTag := UInt16.toNat_inj.1 htag
    obtain rfl : length = 0 := UInt32.toNat_inj.1 hh
    rw [show Format.kindOfTag Format.nodeCreateTag = .nodeCreate from rfl]
    dsimp only
    rw [requireLength_bind, if_pos rfl]
    exact fixed_pure _
  · rename_i htag
    obtain rfl : tag = Format.nodeDestroyTag := UInt16.toNat_inj.1 htag
    obtain rfl : length = 0 := UInt32.toNat_inj.1 hh
    rw [show Format.kindOfTag Format.nodeDestroyTag = .nodeDestroy from rfl]
    dsimp only
    rw [requireLength_bind, if_pos rfl]
    exact fixed_pure _
  · rename_i htag
    obtain rfl : tag = Format.nodePositionTag := UInt16.toNat_inj.1 htag
    obtain rfl : length = Format.nodePositionSize := UInt32.toNat_inj.1 hh
    rw [show Format.kindOfTag Format.nodePositionTag = .nodePosition from rfl]
    dsimp only
    rw [requireLength_bind, if_pos rfl]
    refine (fixed_double.bind fun _ => fixed_double.bind fun _ => fixed_double.bind fun _ =>
      fixed_pure _).congr fun w hw => ?_
    rw [List.drop_drop]
    rfl
  · rename_i h1 h2 h3 h4 h5 h6
    rw [kindOfTag_unknown h1 h2 h3 h4 h5 h6]
    dsimp only
    refine (((fixed_skip _).bind fun _ => fixed_pure _).noted _ _).congr fun w hw => ?_
    rw [show w.length = length.toNat from hw, UInt32.ofNat_toNat]

/-- An event element of another length is refused, attached data beyond the limit behind its ids and anything else before
its payload is read. -/
theorem eventBody_refused {limit : Nat} {h : ElementHeader} (hh : ¬ EventAllows limit h.tag h.length.toNat) :
    (∃ element expected, Fixed 0 (eventBody limit h) fun _ => .error (.inconsistentLength element expected h.length)) ∨
    (h.tag = Format.monitorDataTag ∧ 4 ≤ h.length.toNat ∧ limit < h.length.toNat - 4 ∧
      Fixed 4 (eventBody limit h) fun _ => .error (.payloadTooLarge (h.length.toNat - 4) limit)) := by
  obtain ⟨tag, length⟩ := h
  unfold EventAllows at hh
  unfold eventBody
  dsimp only at hh ⊢
  split at hh
  · rename_i htag
    obtain rfl : tag = Format.monitorCreateTag := UInt16.toNat_inj.1 htag
    rw [show Format.kindOfTag Format.monitorCreateTag = .monitorCreate from rfl]
    dsimp only
    exact .inl ⟨_, _, requireLength_refuses hh⟩
  · rename_i htag
    obtain rfl : tag = Format.monitorStateTag := UInt16.toNat_inj.1 htag
    rw [show Format.kindOfTag Format.monitorStateTag = .monitorState from rfl]
    dsimp only
    exact .inl ⟨_, _, requireLength_refuses hh⟩
  · rename_i htag
    obtain rfl : tag = Format.monitorDataTag := UInt16.toNat_inj.1 htag
    by_cases hmin : 4 ≤ length.toNat
    · have hmax : limit < length.toNat - 4 := Nat.lt_of_not_le fun hmax => hh ⟨hmin, hmax⟩
      exact .inr ⟨rfl, hmin, hmax, attachment_tooLarge hmin hmax⟩
    · exact .inl ⟨_, _, attachment_tooShort hmin⟩
  · rename_i htag
    obtain rfl : tag = Format.nodeCreateTag := UInt16.toNat_inj.1 htag
    rw [show Format.kindOfTag Format.nodeCreateTag = .nodeCreate from rfl]
    dsimp only
    exact .inl ⟨_, _, requireLength_refuses hh⟩
  · rename_i htag
    obtain rfl : tag = Format.nodeDestroyTag := UInt16.toNat_inj.1 htag
    rw [show Format.kindOfTag Format.nodeDestroyTag = .nodeDestroy from rfl]
    dsimp only
    exact .inl ⟨_, _, requireLength_refuses hh⟩
  · rename_i htag
    obtain rfl : tag = Format.nodePositionTag := UInt16.toNat_inj.1 htag
    rw [show Format.kindOfTag Format.nodePositionTag = .nodePosition from rfl]
    dsimp only
    exact .inl ⟨_, _, requireLength_refuses hh⟩
  · exact absurd trivial hh

theorem eventBody_refuses {limit : Nat} {h : ElementHeader} (hh : ¬ EventAllows limit h.tag h.length.toNat) :
    ∃ n e, Fixed n (eventBody limit h) fun _ => .error e := by
  rcases eventBody_refused hh with ⟨element, expected, he⟩ | ⟨-, -, -, he⟩
  · exact ⟨_, _, he⟩
  · exact ⟨_, _, he⟩

theorem regular_eventBody (limit : Nat) (h : ElementHeader) : Regular (eventBody limit h) := by
  by_cases hh : EventAllows limit h.tag h.length.toNat
  · exact (fixed_eventBody hh false).regular
  · obtain ⟨n, e, he⟩ := eventBody_refuses hh
    exact he.regular

end NodeTrace.Decode
