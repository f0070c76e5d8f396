import Mathlib.Tactic.MkIffOfInductiveProp
import NodeTrace.Proofs.Agreement
import NodeTrace.Proofs.GraphText
import NodeTrace.Proofs.Showing

/-!
# Compact lines are read back

A compact line has two parts with a colon between them, and a part has pieces with blanks between them.  While names are
disabled no piece has any of these characters in it, so that a line is cut into its pieces again
(`Listing.pieces_compactLine`), and the pieces are those of another event exactly if the two are told alike
(`Frame.pieces_inj`).  So two listings are one text exactly if they have as many events, told alike one by one
(`compact_lines_tell`).
-/

namespace NodeTrace

/-! ## What a line tells -/

/-- Clocks with the same cycles, and with the same milliseconds as far as these are shown. -/
@[mk_iff] structure NodeTime.ToldAlike (t t' : NodeTime) : Prop where
  cycles : t.cycles = t'.cycles
  millis : t.millis.fixed Value.decimals = t'.millis.fixed Value.decimals

/-- Scopes of the same kinds that have the same under each of them. -/
@[mk_iff] structure Scope.ToldAlike (s s' : Scope) : Prop where
  kinds : s.kinds = s'.kinds
  simMicros : s.kinds.simulation = true → s.simMicros = s'.simMicros
  nodeId : s.kinds.node = true → s.nodeId = s'.nodeId
  nodeTime : s.kinds.node = true → s.nodeTime.ToldAlike s'.nodeTime

/-- Events of one kind that carry the same.  Of what has no meaning only the kind is told, of a calibration not the byte
order. -/
inductive Event.ToldAlike : Event → Event → Prop where
  | unknown (tag tag' : UInt16) (length length' : UInt32) : ToldAlike (.unknown tag length) (.unknown tag' length')
  | monitorCreate {c c' : Calibration} (stateOffset : c.stateOffset.ToldAlike c'.stateOffset)
      (dataOffset : c.dataOffset.ToldAlike c'.dataOffset) (byteOffset : c.byteOffset.ToldAlike c'.byteOffset) :
      ToldAlike (.monitorCreate c) (.monitorCreate c')
  | monitorState (c : StateChange) : ToldAlike (.monitorState c) (.monitorState c)
  | monitorData (a : Attachment) : ToldAlike (.monitorData a) (.monitorData a)
  | nodeCreate : ToldAlike .nodeCreate .nodeCreate
  | nodeDestroy : ToldAlike .nodeDestroy .nodeDestroy
  | nodePosition {p p' : Position} (x : p.x.fixed Value.decimals = p'.x.fixed Value.decimals)
      (y : p.y.fixed Value.decimals = p'.y.fixed Value.decimals)
      (z : p.z.fixed Value.decimals = p'.z.fixed Value.decimals) : ToldAlike (.nodePosition p) (.nodePosition p')

/-- Frames of which a line tells the same. -/
@[mk_iff] structure Frame.ToldAlike (f f' : Frame) : Prop where
  scope : f.scope.ToldAlike f'.scope
  event : f.event.ToldAlike f'.event

/-! ## Unbroken text -/

/-- The text has none of the characters that part a listing into lines, parts and pieces. -/
def Unbroken (text : String) : Prop := ∀ c ∈ text.toList, c ≠ ' ' ∧ c ≠ ':' ∧ c ≠ '\n'

instance (text : String) : Decidable (Unbroken text) := List.decidableBAll _ text.toList

theorem Unbroken.append {text text' : String} (h : Unbroken text) (h' : Unbroken text') : Unbroken (text ++ text') := by
  intro c hc
  rw [String.toList_append] at hc
  exact (List.mem_append.1 hc).elim (h c) (h' c)

theorem Numeral.unbroken {text : String} (h : Numeral text) : Unbroken text := by
  have hall : Unbroken (String.ofList Digits.numerals) := by decide
  exact h.forall_mem hall

/-! ## Bytes in digits -/

namespace Digits

theorem numeral_hexUpper (width n : Nat) : Numeral (hexUpper width n) := by
  have hupper : ∀ d ∈ all.map Char.toUpper, d ∈ numerals := by
    have hincluded : all.map Char.toUpper ⊆ numerals := by decide
    exact fun d hd => hincluded hd
  intro c hc
  unfold hexUpper at hc
  rw [String.toList_ofList] at hc
  obtain ⟨d, hd, rfl⟩ := List.mem_map.1 hc
  exact hupper _ (List.mem_map_of_mem (mem_padded (by decide) (by decide) width n d hd))

theorem length_hexUpper (b : UInt8) : (hexUpper 2 b.toNat).toList.length = 2 := by
  unfold hexUpper
  rw [String.toList_ofList, List.length_map]
  exact length_padded (by decide) b.toNat_lt

end Digits

/-- Bytes of two digits each are told apart, however many there are. -/
theorem join_hexUpper_injective :
    Function.Injective fun bytes : List UInt8 => String.join (bytes.map fun b => Digits.hexUpper 2 b.toNat) := by
  intro bytes bytes' h
  have hlists := congrArg String.toList h
  simp only [String.toList_join, List.flatMap_map] at hlists
  clear h
  induction bytes generalizing bytes' with
  | nil =>
    cases bytes' with
    | nil => rfl
    | cons b' rest' =>
      have hlen := congrArg List.length hlists
      rw [List.flatMap_cons, List.length_append, Digits.length_hexUpper] at hlen
      exact absurd hlen (by rw [List.flatMap_nil, List.length_nil]; omega)
  | cons b rest ih =>
    cases bytes' with
    | nil =>
      have hlen := congrArg List.length hlists
      rw [List.flatMap_cons, List.length_append, Digits.length_hexUpper] at hlen
      exact absurd hlen (by rw [List.flatMap_nil, List.length_nil]; omega)
    | cons b' rest' =>
      rw [List.flatMap_cons, List.flatMap_cons] at hlists
      obtain ⟨hhead, htail⟩ := List.append_inj hlists (by rw [Digits.length_hexUpper, Digits.length_hexUpper])
      rw [UInt8.toNat_inj.1 (Digits.hexUpper_injective 2 (String.toList_injective hhead)), ih htail]

/-! ## Values -/

theorem EventKind.name_injective : Function.Injective EventKind.name := fun kind kind' h =>
  List.inj_on_of_nodup_map (by decide : (all.map name).Nodup) (mem_all kind) (mem_all kind') h

namespace Value

variable {names : Names}

/-- The kinds that a text names, each known by a letter that the others do not have. -/
def kindsNamed (text : String) : ScopeKinds := ⟨'K' ∈ text.toList, 'S' ∈ text.toList, 'D' ∈ text.toList⟩

theorem kindsNamed_compact (kinds : ScopeKinds) : kindsNamed ((scopeKinds kinds).compact names) = kinds := by
  have hall : ∀ unknown simulation node : Bool, kindsNamed ((scopeKinds ⟨unknown, simulation, node⟩).compact {}) =
      ⟨unknown, simulation, node⟩ := by decide
  exact hall kinds.unknown kinds.simulation kinds.node

theorem compact_scopeKinds_inj {kinds kinds' : ScopeKinds} :
    (scopeKinds kinds).compact names = (scopeKinds kinds').compact names ↔ kinds = kinds' := by
  have hinj : Function.Injective fun kinds => (scopeKinds kinds).compact names :=
    Function.LeftInverse.injective (g := kindsNamed) kindsNamed_compact
  exact hinj.eq_iff

theorem compact_eventKind_inj {kind kind' : EventKind} :
    (eventKind kind).compact names = (eventKind kind').compact names ↔ kind = kind' :=
  EventKind.name_injective.eq_iff

theorem compact_micros_inj {n n' : UInt64} : (micros n).compact names = (micros n').compact names ↔ n = n' :=
  Digits.decimal_injective.eq_iff.trans UInt64.toNat_inj

theorem compact_cycles_inj {n n' : UInt64} : (cycles n).compact names = (cycles n').compact names ↔ n = n' :=
  Digits.decimal_injective.eq_iff.trans UInt64.toNat_inj

theorem compact_id_inj {n n' : UInt16} : (id n).compact names = (id n').compact names ↔ n = n' :=
  Digits.decimal_injective.eq_iff.trans UInt16.toNat_inj

theorem compact_data_inj {bytes bytes' : List UInt8} :
    (data bytes).compact names = (data bytes').compact names ↔ bytes = bytes' :=
  join_hexUpper_injective.eq_iff

variable (h : names.enabled = false)
include h

theorem compact_context_inj {c c' : UInt16} : (context c).compact names = (context c').compact names ↔ c = c' := by
  unfold compact
  dsimp only
  rw [Names.showContext_of_disabled h, Names.showContext_of_disabled h]
  exact hexId_injective.eq_iff

theorem compact_entity_inj {c c' e e' : UInt16} :
    (entity c e).compact names = (entity c' e').compact names ↔ e = e' := by
  unfold compact
  dsimp only
  rw [Names.showEntity_of_disabled h, Names.showEntity_of_disabled h]
  exact hexId_injective.eq_iff

theorem compact_state_inj {c c' s s' : UInt16} : (state c s).compact names = (state c' s').compact names ↔ s = s' := by
  unfold compact
  dsimp only
  rw [Names.showState_of_disabled h, Names.showState_of_disabled h]
  exact hexId_injective.eq_iff

theorem unbroken_compact (v : Value) : Unbroken (v.compact names) := by
  cases v with
  | scopeKinds kinds =>
    have hall : ∀ unknown simulation node : Bool, Unbroken ((scopeKinds ⟨unknown, simulation, node⟩).compact {}) := by
      decide
    exact hall kinds.unknown kinds.simulation kinds.node
  | eventKind kind =>
    have hall : ∀ kind ∈ EventKind.all, Unbroken kind.name := by decide
    exact hall kind (EventKind.mem_all kind)
  | context c =>
    unfold compact
    dsimp only
    rw [Names.showContext_of_disabled h]
    exact (numeral_hexId c).unbroken
  | entity c e =>
    unfold compact
    dsimp only
    rw [Names.showEntity_of_disabled h]
    exact (numeral_hexId e).unbroken
  | state c s =>
    unfold compact
    dsimp only
    rw [Names.showState_of_disabled h]
    exact (numeral_hexId s).unbroken
  | coordinate x => exact (x.numeral_fixed decimals).unbroken
  | millis x => exact (x.numeral_fixed decimals).unbroken
  | micros n => exact (Digits.numeral_decimal n.toNat).unbroken
  | cycles n => exact (Digits.numeral_decimal n.toNat).unbroken
  | data bytes =>
    intro c hc
    unfold compact at hc
    dsimp only at hc
    rw [String.toList_join, List.flatMap_map] at hc
    obtain ⟨b, -, hc⟩ := List.mem_flatMap.1 hc
    exact (Digits.numeral_hexUpper 2 b.toNat).unbroken c hc
  | id n => exact (Digits.numeral_decimal n.toNat).unbroken

end Value

/-! ## Fields -/

namespace Field

variable {names : Names}

theorem compact_inj (name title : String) (v v' : Value) :
    compact names ⟨name, title, v⟩ = compact names ⟨name, title, v'⟩ ↔ v.compact names = v'.compact names :=
  String.append_right_inj _

/-- The fields of scopes are told by the same text exactly if the scopes are told alike. -/
theorem map_compact_ofScope_inj {s s' : Scope} :
    (ofScope s).map (·.compact names) = (ofScope s').map (·.compact names) ↔ s.ToldAlike s' := by
  obtain ⟨⟨unknown, simulation, node⟩, simMicros, nodeId, nodeTime⟩ := s
  obtain ⟨kinds', simMicros', nodeId', nodeTime'⟩ := s'
  have hmillis {x x' : Binary64} : (Value.millis x).compact names = (Value.millis x').compact names ↔
      x.fixed Value.decimals = x'.fixed Value.decimals := Iff.rfl
  unfold ofScope
  dsimp only
  rw [List.map_cons, List.map_cons, List.cons_eq_cons, compact_inj, Value.compact_scopeKinds_inj, Scope.toldAlike_iff]
  refine and_congr_right fun hkinds => ?_
  subst hkinds
  -- under the same kinds there are the same fields
  cases simulation <;> cases node <;> simp [Scope.simulation?, Scope.node?, compact_inj, Value.compact_micros_inj,
    Value.compact_id_inj, Value.compact_cycles_inj, hmillis, NodeTime.toldAlike_iff, and_comm]

/-- The same text of the fields of events is that of events told alike. -/
theorem toldAlike_of_map_compact (h : names.enabled = false) {e e' : Event} (hkind : e.kind = e'.kind)
    (hrest : (ofPayload e).map (·.compact names) = (ofPayload e').map (·.compact names)) : e.ToldAlike e' := by
  -- events of two kinds are out, so that only the seven pairs of one kind are left
  cases e <;> cases e' <;> try contradiction
  case unknown.unknown tag length tag' length' => exact .unknown tag tag' length length'
  case monitorCreate.monitorCreate c c' =>
    simp only [ofPayload, ofCalibration, List.map_cons, List.cons_eq_cons, compact_inj, Value.compact_cycles_inj] at hrest
    obtain ⟨hstate, hstate', hdata, hdata', hbyte, hbyte', -⟩ := hrest
    exact .monitorCreate ⟨hstate', hstate⟩ ⟨hdata', hdata⟩ ⟨hbyte', hbyte⟩
  case monitorState.monitorState c c' =>
    obtain ⟨context, entity, state⟩ := c
    obtain ⟨context', entity', state'⟩ := c'
    simp only [ofPayload, ofStateChange, List.map_cons, List.cons_eq_cons, compact_inj, Value.compact_context_inj h,
      Value.compact_entity_inj h, Value.compact_state_inj h] at hrest
    obtain ⟨rfl, rfl, rfl, -⟩ := hrest
    exact .monitorState _
  case monitorData.monitorData a a' =>
    obtain ⟨context, entity, payload⟩ := a
    obtain ⟨context', entity', payload'⟩ := a'
    simp only [ofPayload, ofAttachment, List.map_cons, List.cons_eq_cons, compact_inj, Value.compact_context_inj h,
      Value.compact_entity_inj h, Value.compact_data_inj] at hrest
    obtain ⟨rfl, rfl, rfl, -⟩ := hrest
    exact .monitorData _
  case nodeCreate.nodeCreate => exact .nodeCreate
  case nodeDestroy.nodeDestroy => exact .nodeDestroy
  case nodePosition.nodePosition p p' =>
    simp only [ofPayload, ofPosition, List.map_cons, List.cons_eq_cons, compact_inj] at hrest
    obtain ⟨hx, hy, hz, -⟩ := hrest
    exact .nodePosition hx hy hz

/-- The fields of events are told by the same text exactly if the events are told alike. -/
theorem map_compact_ofEvent_inj (h : names.enabled = false) {e e' : Event} :
    (ofEvent e).map (·.compact names) = (ofEvent e').map (·.compact names) ↔ e.ToldAlike e' := by
  unfold ofEvent ofKind
  rw [List.map_cons, List.map_cons, List.cons_eq_cons, compact_inj, Value.compact_eventKind_inj]
  refine ⟨fun ⟨hkind, hrest⟩ => toldAlike_of_map_compact h hkind hrest, fun htold => ?_⟩
  cases htold with
  | monitorCreate hstate hdata hbyte =>
    refine ⟨rfl, ?_⟩
    simp only [ofPayload, ofCalibration, List.map_cons, List.map_nil, List.cons_eq_cons, compact_inj,
      Value.compact_cycles_inj, and_true]
    exact ⟨hstate.millis, hstate.cycles, hdata.millis, hdata.cycles, hbyte.millis, hbyte.cycles⟩
  | nodePosition hx hy hz =>
    refine ⟨rfl, ?_⟩
    simp only [ofPayload, ofPosition, List.map_cons, List.map_nil, List.cons_eq_cons, compact_inj, and_true]
    exact ⟨hx, hy, hz⟩
  | _ => exact ⟨rfl, rfl⟩

theorem unbroken_name_ofScope (s : Scope) : ∀ f ∈ ofScope s, Unbroken f.name := by
  have hnames : ∀ name ∈ ["SCOPES_USED", "SIM_TIME_US", "NID", "NODE_TIME_MS", "NODE_CYCLES"], Unbroken name := by decide
  have hmem : ∀ f ∈ ofScope s, f.name ∈ ["SCOPES_USED", "SIM_TIME_US", "NID", "NODE_TIME_MS", "NODE_CYCLES"] := by
    unfold ofScope
    cases s.simulation? <;> cases s.node? <;> simp
  exact fun f hf => hnames _ (hmem f hf)

theorem unbroken_name_ofEvent (e : Event) : ∀ f ∈ ofEvent e, Unbroken f.name := by
  unfold ofEvent ofKind ofPayload
  cases e <;> simp only [ofCalibration, ofStateChange, ofAttachment, ofPosition, List.forall_mem_cons] <;> decide

/-- While names are disabled the text of a field is unbroken if its name is. -/
theorem unbroken_compact (h : names.enabled = false) {f : Field} (hname : Unbroken f.name) :
    Unbroken (f.compact names) :=
  (hname.append (by decide)).append (f.value.unbroken_compact h)

end Field

/-! ## Lines -/

/-- The pieces of a line, of the two parts in turn: the number of the event and the fields of its scope, and the fields of
the event. -/
def Frame.pieces (names : Names) (number : Nat) (f : Frame) : List (List String) :=
  [("EVENT=" ++ Digits.decimal number) :: (Field.ofScope f.scope).map (·.compact names),
    (Field.ofEvent f.event).map (·.compact names)]

namespace Listing

variable {names : Names} {number : Nat} {f f' : Frame}

/-- Cut a line into its pieces. -/
def pieces (line : String) : List (List String) :=
  (line.toList.splitOn ':').map fun part => (part.splitOn ' ').map String.ofList

theorem unbroken_pieces (h : names.enabled = false) (number : Nat) (f : Frame) :
    ∀ part ∈ f.pieces names number, ∀ piece ∈ part, Unbroken piece := by
  have hnumber : Unbroken ("EVENT=" ++ Digits.decimal number) :=
    Unbroken.append (by decide) (Digits.numeral_decimal number).unbroken
  have hscope : ∀ piece ∈ (Field.ofScope f.scope).map (·.compact names), Unbroken piece :=
    List.forall_mem_map.2 fun field hf => Field.unbroken_compact h (Field.unbroken_name_ofScope f.scope field hf)
  have hevent : ∀ piece ∈ (Field.ofEvent f.event).map (·.compact names), Unbroken piece :=
    List.forall_mem_map.2 fun field hf => Field.unbroken_compact h (Field.unbroken_name_ofEvent f.event field hf)
  exact List.forall_mem_cons.2 ⟨List.forall_mem_cons.2 ⟨hnumber, hscope⟩, List.forall_mem_singleton.2 hevent⟩

/-- The parts of a line have a colon between them, the pieces of a part have blanks between them. -/
theorem toList_compactLine (names : Names) (number : Nat) (f : Frame) : (compactLine names number f).toList =
    [':'].intercalate ((f.pieces names number).map fun part => [' '].intercalate (part.map String.toList)) := by
  unfold compactLine compactOf Frame.pieces Field.ofScope
  simp [String.toList_append, String.toList_intercalate]

theorem colon_not_mem_part (h : names.enabled = false) (number : Nat) (f : Frame) :
    ∀ part ∈ (f.pieces names number).map fun part => [' '].intercalate (part.map String.toList), ':' ∉ part :=
  List.forall_mem_map.2 fun part hpart => Drawing.not_mem_intercalate (by decide)
    (List.forall_mem_map.2 fun piece hpiece hmem => (unbroken_pieces h number f part hpart piece hpiece ':' hmem).2.1 rfl)

theorem not_mem_compactLine (h : names.enabled = false) (number : Nat) (f : Frame) :
    '\n' ∉ (compactLine names number f).toList := by
  rw [toList_compactLine]
  exact Drawing.not_mem_intercalate (by decide) (List.forall_mem_map.2 fun part hpart =>
    Drawing.not_mem_intercalate (by decide) (List.forall_mem_map.2 fun piece hpiece hmem =>
      (unbroken_pieces h number f part hpart piece hpiece '\n' hmem).2.2 rfl))

/-- While names are disabled a line is cut into the pieces of the event. -/
theorem pieces_compactLine (h : names.enabled = false) (number : Nat) (f : Frame) :
    pieces (compactLine names number f) = f.pieces names number := by
  have hne : ∀ part ∈ f.pieces names number, part ≠ [] :=
    List.forall_mem_cons.2 ⟨List.cons_ne_nil _ _, List.forall_mem_singleton.2 (List.cons_ne_nil _ _)⟩
  have hpart : ∀ part ∈ f.pieces names number,
      (([' '].intercalate (part.map String.toList)).splitOn ' ').map String.ofList = part := fun part hpart =>
    Drawing.map_splitOn_intercalate (hne part hpart) fun piece hpiece hmem =>
      (unbroken_pieces h number f part hpart piece hpiece ' ' hmem).1 rfl
  unfold pieces
  rw [toList_compactLine, List.splitOn_intercalate ':' (colon_not_mem_part h number f) (List.cons_ne_nil _ _),
    List.map_map]
  exact (List.map_congr_left hpart).trans (List.map_id _)

/-- Lines of one number are the same exactly if the events are told alike. -/
theorem compactLine_inj (h : names.enabled = false) :
    compactLine names number f = compactLine names number f' ↔ f.ToldAlike f' := by
  have hpieces : compactLine names number f = compactLine names number f' ↔
      f.pieces names number = f'.pieces names number := by
    refine ⟨fun heq => ?_, fun heq => String.toList_injective ?_⟩
    · rw [← pieces_compactLine h, heq, pieces_compactLine h]
    · rw [toList_compactLine, toList_compactLine, heq]
  rw [hpieces, Frame.toldAlike_iff, ← @Field.map_compact_ofScope_inj names, ← Field.map_compact_ofEvent_inj h]
  unfold Frame.pieces
  rw [List.cons_eq_cons, List.cons_eq_cons, List.cons_eq_cons]
  simp

/-! ## Listings -/

theorem records_compact (names : Names) (frames : List Frame) :
    records names false frames = frames.zipIdx.map fun p => compactLine names p.2 p.1 :=
  List.map_eq_flatMap.symm

/-- The lines of frames are those of others exactly if the frames are told alike one by one. -/
theorem records_compact_inj (h : names.enabled = false) {frames frames' : List Frame} :
    records names false frames = records names false frames' ↔ List.Forall₂ Frame.ToldAlike frames frames' := by
  have hzip (k : Nat) : (frames.zipIdx k).map (fun p => compactLine names p.2 p.1) =
      (frames'.zipIdx k).map (fun p => compactLine names p.2 p.1) ↔ List.Forall₂ Frame.ToldAlike frames frames' := by
    induction frames generalizing frames' k with
    | nil => cases frames' <;> simp
    | cons f rest ih =>
      cases frames' with
      | nil => simp
      | cons f' rest' =>
        rw [List.zipIdx_cons, List.zipIdx_cons, List.map_cons, List.map_cons, List.cons_eq_cons, compactLine_inj h, ih,
          List.forall₂_cons]
  rw [records_compact, records_compact]
  exact hzip 0

/-- Disabled names show nothing, whatever was registered. -/
theorem records_of_disabled {names' : Names} (h : names.enabled = false) (h' : names'.enabled = false) (human : Bool)
    (frames : List Frame) : records names' human frames = records names human frames := by
  unfold records
  refine List.flatMap_congr fun p _ => ?_
  rw [record_congr ((Names.showAlike_of_disabled h).event p.1.event),
    record_congr ((Names.showAlike_of_disabled h').event p.1.event)]

/-- The lines of a listing are read back from its text. -/
theorem lines_textOf_records (h : names.enabled = false) (frames : List Frame) :
    Drawing.lines (Sink.textOf (records names false frames)) = records names false frames := by
  refine Drawing.lines_textOf ?_
  rw [records_compact]
  exact List.forall_mem_map.2 fun p _ => not_mem_compactLine h p.2 p.1

theorem bytesOf_records_inj (h : names.enabled = false) {frames frames' : List Frame} :
    Sink.bytesOf (records names false frames) = Sink.bytesOf (records names false frames') ↔
      List.Forall₂ Frame.ToldAlike frames frames' := by
  rw [← records_compact_inj h]
  refine ⟨fun heq => ?_, fun heq => by rw [heq]⟩
  rw [Sink.bytesOf_eq_toUTF8, Sink.bytesOf_eq_toUTF8] at heq
  rw [← lines_textOf_records h frames, Sink.eq_of_toUTF8 heq, lines_textOf_records h]

end Listing

/-- A listing in compact form, with names disabled and a sink that takes everything, has one line for each event, which is
the record of the event and starts with its number.  Another such listing has the same text exactly if it lists as many
events and each is told like the one at its place. -/
theorem compact_lines_tell {sink : Sink} (hsink : sink.Unfailing) {names : Names} (hnames : names.enabled = false)
    (frames : List Frame) : ∃ (l : Listing) (text : String),
    (Listing.handler names false).handleAll .endOfStream 0 frames { sink } = (.ok frames.length, l) ∧
    l.sink.written = sink.written ++ text.toUTF8.toList ∧
    (Drawing.lines text).length = frames.length ∧
    (∀ (i : Nat) (f : Frame), frames[i]? = some f → ∃ line, (Drawing.lines text)[i]? = some line ∧
      Listing.record names false i f = [line] ∧ ∃ rest, line = "EVENT=" ++ Digits.decimal i ++ " " ++ rest) ∧
    ∀ names' : Names, names'.enabled = false → ∀ frames' : List Frame,
      ((Listing.handler names' false).handleAll .endOfStream 0 frames' { sink }).2.sink.written = l.sink.written ↔
        List.Forall₂ Frame.ToldAlike frames frames' := by
  have hlines := Listing.lines_textOf_records hnames frames
  refine ⟨Listing.after names false sink frames, Sink.textOf (Listing.records names false frames),
    Listing.handleAll_eq_after hsink names false frames, Listing.written_after names false sink frames, ?_,
    fun i f hf => ?_, fun names' hnames' frames' => ?_⟩
  · rw [hlines, Listing.records_compact, List.length_map, List.length_zipIdx]
  · refine ⟨Listing.compactLine names i f, ?_, rfl, Listing.exists_compactLine names i f⟩
    rw [hlines, Listing.records_compact, List.getElem?_map, List.getElem?_zipIdx, hf, Nat.zero_add]
    rfl
  · rw [Listing.handleAll_eq_after hsink]
    unfold Listing.after
    rw [Sink.written_extend_inj, Listing.records_of_disabled hnames hnames', eq_comm, Listing.bytesOf_records_inj hnames]

/-- Data of an entity, told with names that are disabled. -/
def unnamedFrames (bytes : List UInt8) (tag : UInt16) : List Frame :=
  [⟨{ kinds := { simulation := true }, simMicros := 5 }, .monitorData ⟨1, 2, bytes⟩⟩, ⟨{}, .unknown tag 4⟩]

/-- Two bytes are not one, but what has no meaning may have another tag. -/
theorem compact_lines_tell_unnamed : ({} : Sink).Unfailing ∧ (({} : Names).enable false).enabled = false ∧
    ∃ l : Listing, (Listing.handler (({} : Names).enable false) false).handleAll .endOfStream 0
        (unnamedFrames [1, 2] 9) { sink := {} } = (.ok 2, l) ∧
      ((Listing.handler (({} : Names).enable false) false).handleAll .endOfStream 0
        (unnamedFrames [1, 2] 8) { sink := {} }).2.sink.written = l.sink.written ∧
      ((Listing.handler (({} : Names).enable false) false).handleAll .endOfStream 0
        (unnamedFrames [18] 9) { sink := {} }).2.sink.written ≠ l.sink.written := by
  have hsink : ({} : Sink).Unfailing := ⟨rfl, rfl⟩
  have hnames : (({} : Names).enable false).enabled = false := rfl
  obtain ⟨l, -, hl, -, -, -, htell⟩ := compact_lines_tell hsink hnames (unnamedFrames [1, 2] 9)
  refine ⟨hsink, hnames, l, hl, (htell _ hnames _).2 ?_, fun hsame => ?_⟩
  · exact .cons ⟨⟨rfl, fun _ => rfl, nofun, nofun⟩, .monitorData _⟩
      (.cons ⟨⟨rfl, nofun, nofun, nofun⟩, .unknown 9 8 4 4⟩ .nil)
  · cases (htell _ hnames _).1 hsame with
    | cons hfirst _ => nomatch hfirst.event

end NodeTrace
