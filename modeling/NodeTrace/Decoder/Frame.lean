import NodeTrace.Decoder.Element

/-!
# Decoding a frame

A frame starts with a run of scope elements up to a separator; one event element follows.  The run is read
from left to right into one scope, so of two elements of the same kind the later counts.  Elements with a tag
that has no meaning are passed over, in the run and in the place of the event.  The clean end of the trace
is in front of the first control word of the run and nowhere else.
-/

namespace NodeTrace.Decode

/-- Read the payload of one scope element into the scope. -/
def scopeElement (h : ElementHeader) (scope : Scope) : Decode Scope := do
  if h.tag = Format.simulationTag then
    requireLength "SIMULATION scope" h.length Format.simulationSize
    return scope.withSimulation (← word64)
  else if h.tag = Format.nodeTag then
    requireLength "NODE scope" h.length Format.nodeSize
    let time ← nodeTime
    let id ← word16
    return scope.withNode id time
  else
    note .debug ("skipping unknown scope element type " ++ Digits.decimal h.tag.toNat ++ " (" ++
      Digits.decimal h.length.toNat ++ " bytes) at offset " ++ Digits.decimal (← get).offset)
    skip h.length.toNat
    return scope.withUnknown

theorem consumes_scopeElement (h : ElementHeader) (scope : Scope) :
    Consumes 0 (scopeElement h scope) := by
  unfold scopeElement
  split
  · exact (Consumes.bind (consumes_requireLength ..) fun _ =>
      Consumes.bind (l := 0) consumes_word64 fun _ => consumes_pure _).weaken (by omega)
  · split
    · exact (Consumes.bind (consumes_requireLength ..) fun _ =>
        Consumes.bind consumes_nodeTime fun _ =>
          Consumes.bind (l := 0) consumes_word16 fun _ => consumes_pure _).weaken (by omega)
    · refine Consumes.bind (k := 0) (l := 0) (fun d a d' hd => ?_) fun _ =>
        Consumes.bind (k := 0) (l := 0) (consumes_note ..) fun _ =>
          Consumes.bind (k := 0) (l := 0) (consumes_skip _) fun _ => consumes_pure _
      obtain ⟨-, rfl⟩ := EStateM.Result.ok.inj hd
      exact Nat.le_refl _

/-- Read scope elements into `scope` up to and with the separator.  `first` tells whether a control word
that is missing altogether is the clean end of the trace. -/
def scopeRun (first : Bool) (scope : Scope) : Decode Scope := fun d =>
  match _h : elementHeader d with
  | .error e d₁ => .error (if first then e else e.inside) d₁
  | .ok h d₁ =>
    if h.isSeparator then .ok scope d₁
    else
      match _h₁ : (scopeElement h scope).inside d₁ with
      | .error e d₂ => .error e d₂
      | .ok scope' d₂ => scopeRun false scope' d₂
termination_by d => d.unread
decreasing_by
  have := consumes_elementHeader _h
  have := (consumes_scopeElement h scope).inside _h₁
  omega

theorem consumes_scopeRun (first : Bool) (scope : Scope) : Consumes 2 (scopeRun first scope) := by
  intro d a d' h
  fun_induction scopeRun first scope d with
  | case1 => cases h
  | case2 first scope d hd d₁ h₁ =>
    obtain ⟨-, rfl⟩ := EStateM.Result.ok.inj h
    exact consumes_elementHeader h₁
  | case3 => cases h
  | case4 first scope d hd d₁ h₁ hs scope' d₂ h₂ ih =>
    have := consumes_elementHeader h₁
    have := (consumes_scopeElement hd scope).inside h₂
    have := ih h
    omega

/-- Read a scope run. -/
def scope : Decode Scope := scopeRun true {}

/-- Read the payload of an event element.  The limit on attached data is checked after the ids that stand
in front of the data are read. -/
def eventBody (limit : Nat) (h : ElementHeader) : Decode Event := do
  match Format.kindOfTag h.tag with
  | .monitorCreate =>
    requireLength EventKind.monitorCreate.name h.length Format.monitorCreateSize
    let stateOffset ← nodeTime
    let dataOffset ← nodeTime
    let byteOffset ← nodeTime
    let byteOrder ← word8
    return .monitorCreate { stateOffset, dataOffset, byteOffset, byteOrder }
  | .monitorState =>
    requireLength EventKind.monitorState.name h.length Format.monitorStateSize
    let context ← word16
    let entity ← word16
    let state ← word16
    return .monitorState { context, entity, state }
  | .monitorData =>
    requireAtLeast EventKind.monitorData.name h.length Format.attachmentPrefixSize
    let context ← word16
    let entity ← word16
    let size := h.length - Format.attachmentPrefixSize
    requireWithin limit size.toNat
    let payload ← buffer size.toNat
    return .monitorData { context, entity, payload }
  | .nodeCreate =>
    requireLength EventKind.nodeCreate.name h.length 0
    return .nodeCreate
  | .nodeDestroy =>
    requireLength EventKind.nodeDestroy.name h.length 0
    return .nodeDestroy
  | .nodePosition =>
    requireLength EventKind.nodePosition.name h.length Format.nodePositionSize
    let x ← double
    let y ← double
    let z ← double
    return .nodePosition { x, y, z }
  | .unknown =>
    note .debug ("skipping unknown event type " ++ Digits.decimal h.tag.toNat ++ " (" ++
      Digits.decimal h.length.toNat ++ " bytes) at offset " ++ Digits.decimal (← get).offset)
    skip h.length.toNat
    return .unknown h.tag h.length

theorem consumes_eventBody (limit : Nat) (h : ElementHeader) : Consumes 0 (eventBody limit h) := by
  have step {α β : Type} {k : Nat} {x : Decode α} {f : α → Decode β} (hx : Consumes k x)
      (hf : ∀ a, Consumes 0 (f a)) : Consumes 0 (x >>= f) := (hx.bind hf).weaken (by omega)
  have length {β : Type} {f : Unit → Decode β} (element : String) (expected : UInt32)
      (hf : ∀ u, Consumes 0 (f u)) : Consumes 0 (requireLength element h.length expected >>= f) :=
    step (consumes_requireLength ..) hf
  unfold eventBody
  simp only [buffer_toNat]
  split
  · exact length _ _ fun _ => step consumes_nodeTime fun _ => step consumes_nodeTime fun _ =>
      step consumes_nodeTime fun _ => step consumes_word8 fun _ => consumes_pure _
  · exact length _ _ fun _ => step consumes_word16 fun _ => step consumes_word16 fun _ =>
      step consumes_word16 fun _ => consumes_pure _
  · exact step (consumes_requireAtLeast ..) fun _ => step consumes_word16 fun _ =>
      step consumes_word16 fun _ => step (consumes_requireWithin ..) fun _ =>
        step (consumes_take _) fun _ => consumes_pure _
  · exact length _ _ fun _ => consumes_pure _
  · exact length _ _ fun _ => consumes_pure _
  · exact length _ _ fun _ => step consumes_double fun _ => step consumes_double fun _ =>
      step consumes_double fun _ => consumes_pure _
  · refine step (k := 0) (fun d a d' hd => ?_) fun _ => step (consumes_note ..) fun _ =>
      step (consumes_skip _) fun _ => consumes_pure _
    obtain ⟨-, rfl⟩ := EStateM.Result.ok.inj hd
    exact Nat.le_refl _

/-- Read one event element, whose payload of attached data has at most `limit` bytes. -/
def event (limit : Nat) : Decode Event :=
  Decode.inside do eventBody limit (← elementHeader)

theorem consumes_event (limit : Nat) : Consumes 2 (event limit) :=
  (Consumes.bind (l := 0) consumes_elementHeader (consumes_eventBody limit)).inside

/-- Read the next frame. -/
def frame (limit : Nat) : Decode Frame := do
  let scope ← scope
  let event ← event limit
  return ⟨scope, event⟩

/-- A frame has at least a separator and an event header. -/
theorem consumes_frame (limit : Nat) : Consumes 4 (frame limit) :=
  Consumes.bind (k := 2) (l := 2) (consumes_scopeRun ..) fun _ =>
    Consumes.bind (l := 0) (consumes_event limit) fun _ => consumes_pure _

end NodeTrace.Decode
