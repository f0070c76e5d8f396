import NodeTrace.Analysis
import NodeTrace.Proofs.Sinks

/-!
# What is written to a sink that takes everything

A sink without a limit has afterwards what it had before and the bytes that were written to it.  So a listing is the
records of the frames that were handled, numbered from 0 (`Listing.handle_after`), each of which tells its number first
and then its frame (`Listing.exists_told`), and an analysis ends as its dispatch does (`Analysis.finish_unfailing`).
-/

namespace NodeTrace

namespace Listing

/-- The records of frames, numbered from 0. -/
def records (names : Names) (human : Bool) (frames : List Frame) : List String :=
  frames.zipIdx.flatMap fun p => record names human p.2 p.1

theorem records_concat (names : Names) (human : Bool) (frames : List Frame) (f : Frame) :
    records names human (frames ++ [f]) = records names human frames ++ record names human frames.length f := by
  unfold records
  rw [List.zipIdx_append, List.flatMap_append]
  simp

/-- A listing of frames to a sink. -/
def after (names : Names) (human : Bool) (sink : Sink) (frames : List Frame) : Listing where
  sink := sink.extend (Sink.bytesOf (records names human frames))
  count := frames.length

theorem after_nil (names : Names) (human : Bool) (sink : Sink) : after names human sink [] = { sink } := by
  unfold after records
  simp

/-- A frame is listed once its record is written. -/
theorem handle_of_ok {names : Names} {human : Bool} {f : Frame} {l : Listing} {sink : Sink}
    (h : Sink.putLines (record names human l.count f) l.sink = .ok () sink) :
    (handler names human).handle f l = .ok () { sink, count := l.count + 1 } := by
  rw [handle_eq, h]

/-- A record that is not written to its end makes the listing fail. -/
theorem handle_of_error {names : Names} {human : Bool} {f : Frame} {l : Listing} {fault : Fault} {sink : Sink}
    (h : Sink.putLines (record names human l.count f) l.sink = .error fault sink) :
    (handler names human).handle f l = .error (.output fault) { l with sink } := by
  rw [handle_eq, h]

/-- What a listing has written is the text of its records. -/
theorem written_after (names : Names) (human : Bool) (sink : Sink) (frames : List Frame) :
    (after names human sink frames).sink.written =
      sink.written ++ (Sink.textOf (records names human frames)).toUTF8.toList := by
  rw [← Sink.bytesOf_eq_toUTF8]
  rfl

/-- Listing one more frame writes its record. -/
theorem handle_after {sink : Sink} (hs : sink.Unfailing) (names : Names) (human : Bool) (past : List Frame)
    (f : Frame) : (handler names human).handle f (after names human sink past) =
      .ok () (after names human sink (past ++ [f])) := by
  have hput := Sink.putLines_unfailing (hs.extend (Sink.bytesOf (records names human past)))
    (record names human past.length f)
  rw [Sink.extend_extend, ← Sink.bytesOf_append, ← records_concat] at hput
  unfold after
  rw [List.length_append, List.length_singleton]
  exact handle_of_ok hput

/-! ## Texts of records -/

/-- The part stands somewhere in the text. -/
def Within (part text : String) : Prop := ∃ front rest, text = front ++ part ++ rest

section Within

variable {part text : String} {parts : List String}

theorem Within.refl (part : String) : Within part part := ⟨"", "", by rw [String.append_empty, String.empty_append]⟩

theorem Within.append_left (h : Within part text) (front : String) : Within part (front ++ text) := by
  obtain ⟨before, rest, rfl⟩ := h
  exact ⟨front ++ before, rest, by simp only [String.append_assoc]⟩

theorem Within.append_right (h : Within part text) (rest : String) : Within part (text ++ rest) := by
  obtain ⟨front, behind, rfl⟩ := h
  exact ⟨front, behind ++ rest, by simp only [String.append_assoc]⟩

theorem within_intercalate (separator : String) (h : part ∈ parts) : Within part (separator.intercalate parts) := by
  induction parts with
  | nil => cases h
  | cons first rest ih =>
    cases rest with
    | nil =>
      obtain rfl := List.mem_singleton.1 h
      rw [String.intercalate_singleton]
      exact .refl part
    | cons second rest =>
      rw [String.intercalate_cons_cons]
      rcases List.mem_cons.1 h with rfl | h
      · exact ((Within.refl part).append_right separator).append_right _
      · exact (ih h).append_left _

theorem within_textOf {lines : List String} (h : part ∈ lines) : Within part (Sink.textOf lines) := by
  obtain ⟨before, behind, rfl⟩ := List.append_of_mem h
  rw [Sink.textOf_append, Sink.textOf_cons]
  exact (((Within.refl part).append_right "\n").append_right _).append_left _

end Within

/-- The text of the record of an event: it begins with the number of the event, shows all fields of the scope and of the
event, and ends with the last line, which is empty in human form.  There the titles are padded to one width. -/
structure Told (names : Names) (human : Bool) (number : Nat) (f : Frame) (text : String) : Prop where
  heading : ∃ rest, text =
    (if human then "Event: " ++ Digits.decimal number ++ "\n" else "EVENT=" ++ Digits.decimal number ++ " ") ++ rest
  fields : ∃ width, ∀ g ∈ Field.ofScope f.scope ++ Field.ofEvent f.event,
    Within (if human then g.human names width else g.compact names) text
  closing : ∃ front, text = front ++ if human then "\n\n" else "\n"

/-- The line of an event starts with its number. -/
theorem exists_compactLine (names : Names) (number : Nat) (f : Frame) :
    ∃ rest, compactLine names number f = "EVENT=" ++ Digits.decimal number ++ " " ++ rest := by
  unfold compactLine compactOf
  simp only [String.append_assoc]
  exact ⟨_, rfl⟩

theorem told_compact (names : Names) (number : Nat) (f : Frame) :
    Told names false number f (Sink.textOf (record names false number f)) := by
  have htext : Sink.textOf (record names false number f) = compactLine names number f ++ "\n" :=
    Sink.textOf_singleton _
  rw [htext]
  refine ⟨?_, ⟨0, fun g hg => .append_right ?_ "\n"⟩, _, rfl⟩
  · obtain ⟨rest, hrest⟩ := exists_compactLine names number f
    rw [hrest, String.append_assoc]
    exact ⟨rest ++ "\n", rfl⟩
  · unfold compactLine compactOf
    rcases List.mem_append.1 hg with hg | hg
    · exact (((within_intercalate " " (List.mem_map_of_mem hg)).append_left _).append_right _).append_right _
    · exact (within_intercalate " " (List.mem_map_of_mem hg)).append_left _

theorem told_human (names : Names) (number : Nat) (f : Frame) :
    Told names true number f (Sink.textOf (record names true number f)) := by
  obtain ⟨fields, hfields⟩ : ∃ fields, fields = Field.ofScope f.scope ++ Field.ofEvent f.event := ⟨_, rfl⟩
  have hlines : record names true number f =
      ("Event: " ++ Digits.decimal number) :: fields.map (·.human names (titleWidth fields)) ++ [""] := by
    rw [hfields]
    rfl
  rw [hlines]
  refine ⟨?_, ⟨titleWidth fields, fun g hg => within_textOf ?_⟩, ?_⟩
  · show ∃ rest, _ = "Event: " ++ Digits.decimal number ++ "\n" ++ rest
    rw [Sink.textOf_append, Sink.textOf_cons, String.append_assoc]
    exact ⟨_, rfl⟩
  · rw [← hfields] at hg
    exact List.mem_append_left _ (List.mem_cons_of_mem _ (List.mem_map_of_mem hg))
  · obtain ⟨front, hfront⟩ := Sink.exists_textOf
      (List.cons_ne_nil ("Event: " ++ Digits.decimal number) (fields.map (·.human names (titleWidth fields))))
    have hend : "\n" ++ Sink.textOf [""] = "\n\n" := by decide
    rw [Sink.textOf_append, hfront, String.append_assoc, hend]
    exact ⟨front, rfl⟩

/-- The text of a listing is one record for each of its frames, numbered from 0. -/
theorem exists_told (names : Names) (human : Bool) (frames : List Frame) : ∃ texts : List String,
    Sink.textOf (records names human frames) = String.join texts ∧ texts.length = frames.length ∧
      ∀ i f, frames[i]? = some f → ∃ text, texts[i]? = some text ∧ Told names human i f text := by
  refine ⟨frames.zipIdx.map fun p => Sink.textOf (record names human p.2 p.1), ?_, ?_, fun i f hf => ?_⟩
  · unfold records
    exact Sink.textOf_flatMap _ _
  · rw [List.length_map, List.length_zipIdx]
  · refine ⟨Sink.textOf (record names human i f), ?_, ?_⟩
    · rw [List.getElem?_map, List.getElem?_zipIdx, hf, Nat.zero_add]
      rfl
    · cases human with
      | false => exact told_compact names i f
      | true => exact told_human names i f

end Listing

namespace Analysis

variable {s t : Sink} {lines : List String}

/-- Once everything is written, the sink is flushed. -/
theorem finish_nil (n : Nat) (t : Sink) (d : Decoder) : finish (.ok n) [] t d =
    ⟨if t.flushFails then .error (.output (.other "flush failure")) else .ok n,
      { t with flushes := t.flushes + 1 }, d.log.toList⟩ := by
  unfold finish
  dsimp only
  by_cases hf : t.flushFails = true
  · have hflush : (do Sink.putLines []; Sink.flush : Write Unit) t =
        .error (.other "flush failure") { t with flushes := t.flushes + 1 } := if_pos hf
    rw [hflush, if_pos hf]
  · have hflush : (do Sink.putLines []; Sink.flush : Write Unit) t = .ok () { t with flushes := t.flushes + 1 } :=
      if_neg hf
    rw [hflush, if_neg hf]

/-- Lines that are written leave the flush to be done. -/
theorem finish_of_ok (h : Sink.putLines lines s = .ok () t) (n : Nat) (d : Decoder) :
    finish (.ok n) lines s d = finish (.ok n) [] t d := by
  have hbind : (do Sink.putLines lines; Sink.flush : Write Unit) s = (do Sink.putLines []; Sink.flush) t := by
    show EStateM.bind (Sink.putLines lines) (fun _ => Sink.flush) s = _
    unfold EStateM.bind
    rw [h]
    rfl
  unfold finish
  dsimp only
  rw [hbind]

/-- Lines that are not written to their end make the analysis fail. -/
theorem finish_of_error {fault : Fault} (h : Sink.putLines lines s = .error fault t) (n : Nat) (d : Decoder) :
    finish (.ok n) lines s d = finish (.error (.output fault)) [] t d := by
  have hbind : (do Sink.putLines lines; Sink.flush : Write Unit) s = .error fault t := by
    show EStateM.bind (Sink.putLines lines) (fun _ => Sink.flush) s = _
    unfold EStateM.bind
    rw [h]
  unfold finish
  dsimp only
  rw [hbind]

end Analysis

/-- An analysis that had `sink` to write to ended as a trace does that comes to `r`: with its error, or with its number of
frames and these lines written. -/
structure Analysed.Ends (w : Analysed) (r : Except DecodeError Nat) (sink : Sink) (lines : List String) : Prop where
  outcome : w.outcome = r.mapError .decode
  written : ∀ n, r = .ok n → w.sink.written = sink.written ++ Sink.bytesOf lines

/-- An analysis that writes to a sink which takes everything ends as its dispatch does. -/
theorem Analysis.finish_unfailing {sink : Sink} (hs : sink.Unfailing) (r : Except DecodeError Nat)
    (lines : List String) (d : Decoder) : (finish (r.mapError .decode) lines sink d).Ends r sink lines := by
  cases r with
  | error e => exact ⟨rfl, nofun⟩
  | ok n =>
    show (finish (.ok n) lines sink d).Ends (.ok n) sink lines
    rw [finish_of_ok (Sink.putLines_unfailing hs lines), finish_nil, if_neg (by rw [(hs.extend _).flushes]; nofun)]
    exact ⟨rfl, fun _ _ => rfl⟩

end NodeTrace
