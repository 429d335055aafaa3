import TensorParity.Proofs.Backend.Exchange
import TensorParity.Proofs.File.System
import TensorParity.Proofs.Record.RoundTrip

/-!
Tensors on their way to a runner and back. What is kept of an answer depends on its bytes and not on
the pieces they come in, and an answer that was not kept whole is no answer. A runner that repeats
its request as its answer returns the tensors that were sent, if all their elements are finite.
Others are sent too, with nulls in the place of what has no number, and then the answer is refused.
-/
namespace TensorParity

/-- The bytes of a stream that comes in pieces. -/
def streamBytes (pieces : List ByteArray) : List UInt8 := pieces.flatMap (·.data.toList)

namespace Capture

variable {limit : Nat} {bytes : List UInt8} {c : Capture}

/-- What is known of a stream after these bytes. -/
structure Holds (limit : Nat) (bytes : List UInt8) (c : Capture) : Prop where
  kept : c.kept.data.toList = bytes.take limit
  /-- Numbers of bytes are words. -/
  total : c.total = min bytes.length (Shape.wordLimit - 1)
  overflowed : c.overflowed = true ↔ limit < c.total

theorem holds_empty (limit : Nat) : Holds limit [] empty where
  kept := List.take_nil.symm
  total := rfl
  overflowed := by simp [empty]

/-- A piece goes on where the bytes before it ended. -/
theorem Holds.absorb (h : Holds limit bytes c) (piece : ByteArray) :
    Holds limit (bytes ++ piece.data.toList) (c.absorb limit piece) where
  kept := by
    have hroom : c.kept.size = min limit bytes.length := by
      rw [← List.length_take, ← h.kept, Array.length_toList]
      rfl
    have hlength : piece.data.toList.length = piece.size := Array.length_toList
    simp only [Capture.absorb, ByteArray.data_append, ByteArray.data_extract, Array.toList_append,
      Array.toList_extract, h.kept, hroom, List.extract_eq_take_drop, List.drop_zero, Nat.sub_zero,
      List.take_append]
    congr 1
    -- of the piece as much is kept as there is room for
    rw [List.take_eq_take_iff, hlength]
    omega
  total := by
    have hlength : piece.data.toList.length = piece.size := Array.length_toList
    simp only [Capture.absorb, h.total, List.length_append, hlength]
    omega
  overflowed := by
    have hcount := h.total
    simp only [Capture.absorb, Bool.or_eq_true, h.overflowed, decide_eq_true_eq]
    -- the count never falls, so the flag stays
    omega

theorem holds_ofPieces (limit : Nat) (pieces : List ByteArray) :
    Holds limit (streamBytes pieces) (ofPieces limit pieces) := by
  have hfold (bytes : List UInt8) (c : Capture) (h : Holds limit bytes c) :
      Holds limit (bytes ++ streamBytes pieces) (pieces.foldl (Capture.absorb limit) c) := by
    induction pieces generalizing bytes c with
    | nil => simpa [streamBytes] using h
    | cons piece rest ih =>
      have hrest := ih _ _ (h.absorb piece)
      rwa [List.append_assoc] at hrest
  exact hfold [] empty (holds_empty limit)

/-- The bytes of a stream determine all that is known of it. -/
theorem Holds.unique {d : Capture} (hc : Holds limit bytes c) (hd : Holds limit bytes d) :
    c = d := by
  obtain ⟨kept, total, overflowed⟩ := c
  obtain ⟨kept', total', overflowed'⟩ := d
  obtain rfl : kept = kept' := by
    apply ByteArray.ext
    apply Array.toList_inj.mp
    exact hc.kept.trans hd.kept.symm
  obtain rfl : total = total' := hc.total.trans hd.total.symm
  obtain rfl : overflowed = overflowed' := by
    apply Bool.eq_iff_iff.mpr
    exact hc.overflowed.trans hd.overflowed.symm
  rfl

/-- A limit that a word can exceed is exceeded by the count if and only if the stream exceeds it. -/
theorem Holds.lt_total_iff (h : Holds limit bytes c) {bound : Nat}
    (hbound : bound < Shape.wordLimit - 1) : bound < c.total ↔ bound < bytes.length := by
  rw [h.total]
  omega

/-- A stream that stayed within its limit is kept whole. -/
theorem Holds.kept_eq (h : Holds limit bytes c) (hlength : bytes.length ≤ limit) :
    c.kept.data.toList = bytes := by
  rw [h.kept, List.take_of_length_le hlength]

theorem check_eq_ok_iff (stream : OutputStream) :
    c.check stream limit = .ok () ↔ c.total ≤ limit := by
  rw [check]
  split <;> simp_all

theorem check_eq_error_iff {stream : OutputStream} {e : ProcessError} :
    c.check stream limit = .error e ↔ limit < c.total ∧ e = .overflow stream c.total limit := by
  rw [check]
  split <;> simp_all [eq_comm]

end Capture

open Json

/-- The first occurrence of a word replaced by another. -/
def Text.replaceFirst (word other : List Char) : List Char → List Char
  | [] => []
  | c :: cs =>
    if word.isPrefixOf (c :: cs) then other ++ (c :: cs).drop word.length
    else c :: replaceFirst word other cs

/-- A request as an answer: its inputs are called outputs. -/
def ProcessSettings.repeated (request : String) : String :=
  .ofList (Text.replaceFirst "\"inputs\"".toList "\"outputs\"".toList request.toList)

/-- A command that prints its request as the answer and ends well. -/
structure Completion.Repeats (c : Completion) (request : String) : Prop where
  stdout : streamBytes c.stdout = (ProcessSettings.repeated request).toUTF8.toList
  stderr : (streamBytes c.stderr).length ≤ Command.maxStderrBytes
  ending : c.ending = .exited 0

theorem asFloat_ofFloat_eq_error {x : Float} (h : ¬ x.isFinite = true) :
    asFloat (ofFloat x) = .error (.wrongType none) := by
  rw [ofFloat, if_neg h]
  rfl

/-- A tensor is sent as it is only if its elements are finite. -/
theorem Tensor.ofJson_toJson_eq_error {t : Tensor Float} (h : ¬ t.Finite) :
    ofJson t.toJson = .error (.wrongType none) := by
  have hshape := asShape_ofShape t.inWords
  have hdata : asList asFloat (.array (t.data.toList.map .ofFloat)) = .error (.wrongType none) := by
    rw [asList, List.mapM_map]
    refine mapM_eq_error (fun x _ e' he' => ?_) ?_
    · by_cases hx : x.isFinite = true
      · simp only [Function.comp_apply, asFloat_ofFloat hx] at he'
        cases he'
      · simp only [Function.comp_apply, asFloat_ofFloat_eq_error hx] at he'
        exact (Except.error.inj he').symm
    · obtain ⟨x, hx, hnot⟩ : ∃ x ∈ t.data.toList, ¬ x.isFinite = true := by
        simpa [Finite] using h
      exact ⟨x, hx, _, asFloat_ofFloat_eq_error hnot⟩
  simp [ofJson, toJson, Json.record, walkRecord, walkFields, Slots.field, fill, required, hshape,
    hdata]

namespace OutputTuple

variable {tensors : OutputTuple}

theorem ofJson_toJson (h : ∀ t ∈ tensors, t.Finite) : ofJson (toJson tensors) = .ok tensors :=
  asList_map fun t ht => Tensor.ofJson_toJson (h t ht)

theorem ofJson_toJson_eq_error (h : ∃ t ∈ tensors, ¬ t.Finite) :
    ofJson (toJson tensors) = .error (.wrongType none) := by
  rw [toJson, ofJson, asList, List.mapM_map]
  refine mapM_eq_error (fun t _ e' he' => ?_) ?_
  · by_cases ht : t.Finite
    · simp only [Function.comp_apply, Tensor.ofJson_toJson ht] at he'
      cases he'
    · simp only [Function.comp_apply, Tensor.ofJson_toJson_eq_error ht] at he'
      exact (Except.error.inj he').symm
  · obtain ⟨t, ht, hnot⟩ := h
    exact ⟨t, ht, _, Tensor.ofJson_toJson_eq_error hnot⟩

theorem printable_toJson (tensors : OutputTuple) (depth : Nat) :
    Printable (depth + 3) (toJson tensors) :=
  printable_map fun t _ => t.printable_toJson depth

end OutputTuple

namespace Command

variable {stdout stderr : Capture} {limitMillis : Option Nat} {c : Completion} {body : ByteArray}
  {outBytes errBytes : List UInt8}

theorem checkStreams_eq_ok_iff :
    checkStreams stdout stderr = .ok () ↔
      stdout.total ≤ maxStdoutBytes ∧ stderr.total ≤ maxStderrBytes := by
  rw [checkStreams, bind_eq_ok, ← Capture.check_eq_ok_iff .stdout,
    ← Capture.check_eq_ok_iff .stderr]
  exact ⟨fun ⟨_, hout, herr⟩ => ⟨hout, herr⟩, fun ⟨hout, herr⟩ => ⟨(), hout, herr⟩⟩

/-- The standard output is blamed first. -/
theorem checkStreams_eq_error_iff {e : ProcessError} :
    checkStreams stdout stderr = .error e ↔
      (maxStdoutBytes < stdout.total ∧ e = .overflow .stdout stdout.total maxStdoutBytes) ∨
        stdout.total ≤ maxStdoutBytes ∧ maxStderrBytes < stderr.total ∧
          e = .overflow .stderr stderr.total maxStderrBytes := by
  rw [checkStreams, bind_eq_error, Capture.check_eq_error_iff]
  apply or_congr_right
  rw [← Capture.check_eq_ok_iff .stdout, ← Capture.check_eq_error_iff]
  exact ⟨fun ⟨_, hout, herr⟩ => ⟨hout, herr⟩, fun ⟨hout, herr⟩ => ⟨(), hout, herr⟩⟩

/-- Streams pass exactly if no flag is set. -/
theorem flagged_iff (hstdout : stdout.Holds maxStdoutBytes outBytes)
    (hstderr : stderr.Holds maxStderrBytes errBytes) :
    (∃ stream actual limit, checkStreams stdout stderr = .error (.overflow stream actual limit)) ↔
      stdout.overflowed = true ∨ stderr.overflowed = true := by
  rw [hstdout.overflowed, hstderr.overflowed]
  simp only [checkStreams_eq_error_iff]
  constructor
  · rintro ⟨_, _, _, ⟨hout, -⟩ | ⟨-, herr, -⟩⟩
    · exact .inl hout
    · exact .inr herr
  · intro h
    by_cases hout : maxStdoutBytes < stdout.total
    · exact ⟨_, _, _, .inl ⟨hout, rfl⟩⟩
    · exact ⟨_, _, _, .inr ⟨Nat.le_of_not_lt hout, h.resolve_left hout, rfl⟩⟩

theorem checkStreams_of_holds (hstdout : stdout.Holds maxStdoutBytes outBytes)
    (hstderr : stderr.Holds maxStderrBytes errBytes) :
    checkStreams stdout stderr = .ok () ↔
      outBytes.length ≤ maxStdoutBytes ∧ errBytes.length ≤ maxStderrBytes := by
  have hout : maxStdoutBytes < stdout.total ↔ maxStdoutBytes < outBytes.length :=
    hstdout.lt_total_iff (by decide)
  have herr : maxStderrBytes < stderr.total ↔ maxStderrBytes < errBytes.length :=
    hstderr.lt_total_iff (by decide)
  rw [checkStreams_eq_ok_iff, ← Nat.not_lt, ← Nat.not_lt, hout, herr, Nat.not_lt, Nat.not_lt]

/-- A command yields something if and only if it ended well within its limits, and then all that it
printed. -/
theorem judge_eq_ok_iff :
    judge limitMillis c = .ok body ↔
      (c.ending = .exited 0 ∧ (streamBytes c.stdout).length ≤ maxStdoutBytes ∧
        (streamBytes c.stderr).length ≤ maxStderrBytes) ∧
          body.data.toList = streamBytes c.stdout := by
  have hout := Capture.holds_ofPieces maxStdoutBytes c.stdout
  have hcheck := checkStreams_of_holds hout (Capture.holds_ofPieces maxStderrBytes c.stderr)
  unfold judge
  dsimp only
  split
  · simp_all
  · rename_i hending
    rw [bind_eq_ok, hending]
    constructor
    · rintro ⟨_, hstreams, hkept⟩
      obtain ⟨hstdout, hstderr⟩ := hcheck.mp hstreams
      obtain rfl := Except.ok.inj hkept
      exact ⟨⟨rfl, hstdout, hstderr⟩, hout.kept_eq hstdout⟩
    · rintro ⟨⟨-, hstdout, hstderr⟩, hbody⟩
      refine ⟨(), hcheck.mpr ⟨hstdout, hstderr⟩, congrArg Except.ok ?_⟩
      apply ByteArray.ext
      apply Array.toList_inj.mp
      rw [hout.kept_eq hstdout, hbody]
  · rename_i hbad
    constructor
    · intro h
      obtain ⟨_, -, hfailed⟩ := bind_eq_ok.mp h
      cases hfailed
    · rintro ⟨⟨hending, -⟩, -⟩
      exact absurd hending hbad

/-- What a command is blamed with: its time, the length of a stream, or how it ended and all that it
printed about it, cut only for display. -/
theorem judge_eq_error {e : ProcessError} (h : judge limitMillis c = .error e) :
    e = .timedOut (limitMillis.getD 0) ∨ (∃ stream actual limit, e = .overflow stream actual limit) ∨
      e = .failed c.ending
        (Text.boundedInside diagnosticBytes (Text.trim (Text.lossy (streamBytes c.stderr)))) := by
  have herr := Capture.holds_ofPieces maxStderrBytes c.stderr
  have hcheck := checkStreams_of_holds (Capture.holds_ofPieces maxStdoutBytes c.stdout) herr
  have hoverflow {stdout stderr : Capture} (h : checkStreams stdout stderr = .error e) :
      ∃ stream actual limit, e = .overflow stream actual limit := by
    rcases checkStreams_eq_error_iff.mp h with ⟨-, rfl⟩ | ⟨-, -, rfl⟩
    · exact ⟨_, _, _, rfl⟩
    · exact ⟨_, _, _, rfl⟩
  unfold judge at h
  dsimp only at h
  split at h
  · exact .inl (Except.error.inj h).symm
  · rcases bind_eq_error.mp h with h | ⟨_, -, h⟩
    · exact .inr (.inl (hoverflow h))
    · cases h
  · rcases bind_eq_error.mp h with h | ⟨_, hstreams, h⟩
    · exact .inr (.inl (hoverflow h))
    · rw [toList_bytes, herr.kept_eq (hcheck.mp hstreams).2] at h
      exact .inr (.inr (Except.error.inj h).symm)

variable {host : Host} {command : Command} {extra : List String} {stdin : Option ByteArray}
  {fs after : FileSystem}

/-- What comes of a command: its standard input is refused, it cannot be started, or it is judged
when it is done. -/
theorem outcome_run (host : Host) (command : Command) (extra : List String)
    (stdin : Option ByteArray) (fs : FileSystem) :
    (run host command extra stdin).outcome fs =
      match checkStdin stdin with
      | .error e => (.error e, fs)
      | .ok () =>
        match host.run (command.invocation extra stdin) fs with
        | .error e => (.error (.spawn command.program e), fs)
        | .ok (completion, after) => (judge command.limitMillis completion, after) := by
  rw [run, FileAction.outcome_bind, FileAction.outcome_lift]
  cases checkStdin stdin with
  | error e => rfl
  | ok _ =>
    dsimp only
    rw [FileAction.outcome_bind, FileAction.outcome_get]
    dsimp only
    cases host.run (command.invocation extra stdin) fs with
    | error e => rfl
    | ok ran =>
      obtain ⟨completion, after⟩ := ran
      dsimp only
      rw [FileAction.outcome_bind, FileAction.outcome_set]
      dsimp only
      rw [FileAction.outcome_ofResult]
      cases judge command.limitMillis completion <;> rfl

/-- A command that yields something was started and judged well. -/
theorem run_eq_ok (h : (run host command extra stdin).outcome fs = (.ok body, after)) :
    ∃ completion, host.run (command.invocation extra stdin) fs = .ok (completion, after) ∧
      judge command.limitMillis completion = .ok body := by
  rw [outcome_run] at h
  split at h
  · cases h
  split at h
  · cases h
  · rename_i completion ran hran
    obtain ⟨hjudged, rfl⟩ := Prod.mk.inj h
    exact ⟨completion, hran, hjudged⟩

/-- What is kept of a stream is its beginning, with its length, as far as words count, and whether it
is longer than the limit, however it is cut into pieces. The check of both streams reports an overflow
exactly if the flag of one is set. So what a command yields is all that it printed, and what a failure
is told with comes from all that it printed about it. -/
theorem captures_whole_streams :
    (∀ limit pieces,
      (Capture.ofPieces limit pieces).kept.data.toList = (streamBytes pieces).take limit ∧
        (Capture.ofPieces limit pieces).total =
          min (streamBytes pieces).length (Shape.wordLimit - 1) ∧
        (limit < Shape.wordLimit - 1 →
          ((Capture.ofPieces limit pieces).overflowed = true ↔
            limit < (streamBytes pieces).length)) ∧
        ((streamBytes pieces).length < Shape.wordLimit →
          (Capture.ofPieces limit pieces).total = (streamBytes pieces).length ∧
            ((Capture.ofPieces limit pieces).overflowed = true ↔
              limit < (streamBytes pieces).length))) ∧
      (∀ limit pieces others, streamBytes pieces = streamBytes others →
        Capture.ofPieces limit pieces = Capture.ofPieces limit others) ∧
      (∀ out err : List ByteArray,
        (Capture.ofPieces maxStdoutBytes out).overflowed = true ∨
            (Capture.ofPieces maxStderrBytes err).overflowed = true ↔
          ∃ stream actual limit, checkStreams (Capture.ofPieces maxStdoutBytes out)
            (Capture.ofPieces maxStderrBytes err) = .error (.overflow stream actual limit)) ∧
      (∀ limitMillis completion body, judge limitMillis completion = .ok body →
        body.data.toList = streamBytes completion.stdout) ∧
      (∀ limitMillis completion ending text,
        judge limitMillis completion = .error (.failed ending text) →
        text = Text.boundedInside diagnosticBytes
          (Text.trim (Text.lossy (streamBytes completion.stderr)))) ∧
      ∀ host command extra stdin fs body after,
        (run host command extra stdin).outcome fs = (.ok body, after) →
        ∃ completion, host.run (command.invocation extra stdin) fs = .ok (completion, after) ∧
          body.data.toList = streamBytes completion.stdout := by
  refine ⟨?_, ?_, ?_, ?_, ?_, ?_⟩
  · intro limit pieces
    have hcapture := Capture.holds_ofPieces limit pieces
    refine ⟨hcapture.kept, hcapture.total, ?_, ?_⟩
    · intro hlimit
      exact hcapture.overflowed.trans (hcapture.lt_total_iff hlimit)
    · intro hwords
      have htotal := hcapture.total
      rw [Nat.min_eq_left (Nat.le_sub_one_of_lt hwords)] at htotal
      rw [hcapture.overflowed, htotal]
      exact ⟨rfl, Iff.rfl⟩
  · intro limit pieces others hsame
    apply (Capture.holds_ofPieces limit pieces).unique
    rw [hsame]
    exact Capture.holds_ofPieces limit others
  · intro out err
    exact (flagged_iff (Capture.holds_ofPieces _ out) (Capture.holds_ofPieces _ err)).symm
  · intro limitMillis completion body hjudged
    exact (judge_eq_ok_iff.mp hjudged).2
  · intro limitMillis completion ending text hjudged
    rcases judge_eq_error hjudged with h | ⟨_, _, _, h⟩ | h
    · cases h
    · cases h
    · exact (ProcessError.failed.inj h).2
  · intro host command extra stdin fs body after hrun
    obtain ⟨completion, hstarted, hjudged⟩ := run_eq_ok hrun
    exact ⟨completion, hstarted, (judge_eq_ok_iff.mp hjudged).2⟩

/-- Six bytes in two pieces and in one, of which four are kept. -/
theorem captures_whole_streams_six :
    (Capture.ofPieces 4 [⟨#[1, 2, 3]⟩, ⟨#[4, 5, 6]⟩]).kept.data.toList = [1, 2, 3, 4] ∧
      (Capture.ofPieces 4 [⟨#[1, 2, 3]⟩, ⟨#[4, 5, 6]⟩]).total = 6 ∧
      (Capture.ofPieces 4 [⟨#[1, 2, 3]⟩, ⟨#[4, 5, 6]⟩]).overflowed = true ∧
      Capture.ofPieces 4 [⟨#[1, 2, 3]⟩, ⟨#[4, 5, 6]⟩] =
        Capture.ofPieces 4 [⟨#[1, 2, 3, 4, 5, 6]⟩] ∧
      ∃ body, judge none ⟨[⟨#[1, 2, 3]⟩, ⟨#[4, 5, 6]⟩], [], .exited 0⟩ = .ok body ∧
        body.data.toList = [1, 2, 3, 4, 5, 6] := by
  obtain ⟨hkept, hsame, -, hjudged, -⟩ := captures_whole_streams
  obtain ⟨hbytes, -, -, hcount⟩ := hkept 4 [⟨#[1, 2, 3]⟩, ⟨#[4, 5, 6]⟩]
  obtain ⟨htotal, hflag⟩ := hcount (by decide)
  have hwhole : judge none ⟨[⟨#[1, 2, 3]⟩, ⟨#[4, 5, 6]⟩], [], .exited 0⟩ =
      .ok ⟨#[1, 2, 3, 4, 5, 6]⟩ := by
    apply judge_eq_ok_iff.mpr
    decide
  exact ⟨hbytes, htotal, hflag.mpr (by decide), hsame 4 _ _ rfl, _, hwhole, hjudged _ _ _ hwhole⟩

end Command

namespace ProcessSettings

variable {inputs : List (Tensor Float)}

/-- A request that is repeated is the answer with these outputs. -/
theorem repeated_request (inputs : List (Tensor Float)) :
    repeated (request inputs).text =
      (Json.record [("outputs", OutputTuple.toJson inputs)]).text := by
  have hprintable := OutputTuple.printable_toJson inputs 0
  rw [← String.toList_inj, repeated, String.toList_ofList, request, toList_text_single hprintable,
    toList_text_single hprintable]
  rfl

theorem readOutput_text {fields : List (String × Json)} (depth : Nat) (hdepth : depth < maxDepth)
    (hfields : ∀ field ∈ fields, Printable depth field.2) :
    readOutput (Json.record fields).text.toUTF8 =
      (response (Json.record fields)).mapError (.malformed · (Json.record fields).text) := by
  have h : Printable maxDepth (Json.record fields) := printable_mono (.object hfields) hdepth
  have hvisible : (Json.record fields).text.toList.all Text.isBlank = false := by
    obtain ⟨cs, htext⟩ := toList_text_record hfields
    rw [List.all_eq_false]
    exact ⟨'{', by simp [htext], by decide⟩
  have hline := Text.lastLine?_of_noNewline (newline_not_mem_text h) hvisible
  have hdecode : Json.decode response (Document.ofString (Json.record fields).text) =
      response (Json.record fields) := by
    rw [Document.ofString_text h]
    cases hresponse : response (Json.record fields) with
    | ok outputs => simp [Json.decode, hresponse, pure, Except.pure]
    | error e => simp [Json.decode, hresponse]
  rw [readOutput_of_lastLine hline, readLine, hdecode]

theorem response_outputs (j : Json) :
    response (Json.record [("outputs", j)]) = OutputTuple.ofJson j := by
  cases hread : OutputTuple.ofJson j with
  | ok outputs =>
    simp [response, Json.record, walkRecord, walkFields, Slots.field, fill, required, hread]
    rfl
  | error e =>
    simp [response, Json.record, walkRecord, walkFields, Slots.field, fill, required, hread]

variable {host : Host} {s : ProcessSettings} {c : Converted} {fs after : FileSystem}
  {completion : Completion}

/-- What a runner is asked to do. -/
def runnerInvocation (s : ProcessSettings) (c : Converted) (inputs : List (Tensor Float)) :
    Invocation where
  program := s.runner.program
  arguments := s.runner.arguments ++ [c.structurePath.text, c.weightsPath.text]
  directory := s.runner.directory
  stdin := some (request inputs).text.toUTF8
  limitMillis := s.runner.limitMillis

/-- A runner is started on every request that is not too large, and its answer is read. -/
theorem outcome_infer {body : ByteArray}
    (hsize : (request inputs).text.utf8ByteSize ≤ Command.maxStdinBytes)
    (hstarted : host.run (s.runnerInvocation c inputs) fs = .ok (completion, after))
    (hjudged : Command.judge s.runner.limitMillis completion = .ok body) :
    (infer host s c inputs).outcome fs = ((readOutput body).mapError .output, after) := by
  have hrun : (Command.run host s.runner [c.structurePath.text, c.weightsPath.text]
      (some (request inputs).text.toUTF8)).outcome fs = (.ok body, after) := by
    have hstarted' : host.run (s.runner.invocation [c.structurePath.text, c.weightsPath.text]
        (some (request inputs).text.toUTF8)) fs = .ok (completion, after) := hstarted
    have hfits : Command.checkStdin (some (request inputs).text.toUTF8) = .ok () :=
      if_neg (Nat.not_lt.mpr hsize)
    rw [Command.outcome_run, hfits, hstarted', ← hjudged]
  rw [infer, FileAction.outcome_bind, FileAction.outcome_adapt, hrun]
  exact FileAction.outcome_ofResult _ _

theorem utf8ByteSize_repeated (inputs : List (Tensor Float)) :
    (repeated (request inputs).text).utf8ByteSize = (request inputs).text.utf8ByteSize + 1 := by
  have hprintable := OutputTuple.printable_toJson inputs 0
  have hkeys : "outputs".utf8ByteSize = "inputs".utf8ByteSize + 1 := rfl
  rw [repeated_request, request, text_single hprintable rfl, text_single hprintable rfl]
  simp only [String.utf8ByteSize_append]
  omega

/-- What a repeating runner yields is what is read from the trees of the tensors. -/
theorem outcome_infer_repeated
    (hsize : (request inputs).text.utf8ByteSize < Command.maxStdinBytes)
    (hstarted : host.run (s.runnerInvocation c inputs) fs = .ok (completion, after))
    (hrepeats : completion.Repeats (request inputs).text) :
    (infer host s c inputs).outcome fs =
      ((OutputTuple.ofJson (OutputTuple.toJson inputs)).mapError fun fault =>
        .output (.malformed fault (repeated (request inputs).text)), after) := by
  -- the key of an answer is one byte longer, hence the strict bound on the request
  have hanswer := (utf8ByteSize_repeated inputs).trans_le hsize
  have hbytes : (repeated (request inputs).text).toUTF8.data.toList =
      streamBytes completion.stdout := by
    rw [hrepeats.stdout, toList_bytes]
  have hprinted : (streamBytes completion.stdout).length ≤ Command.maxStdoutBytes := by
    rw [hrepeats.stdout, length_toList_toUTF8]
    exact hanswer
  have hjudged : Command.judge s.runner.limitMillis completion = .ok _ :=
    Command.judge_eq_ok_iff.mpr ⟨⟨hrepeats.ending, hprinted, hrepeats.stderr⟩, hbytes⟩
  have hread : readOutput (repeated (request inputs).text).toUTF8 =
      (OutputTuple.ofJson (OutputTuple.toJson inputs)).mapError
        (.malformed · (repeated (request inputs).text)) := by
    rw [repeated_request, readOutput_text 3 (by decide) ?_, response_outputs]
    exact List.forall_mem_singleton.mpr (OutputTuple.printable_toJson inputs 0)
  rw [outcome_infer hsize.le hstarted hjudged, hread]
  cases OutputTuple.ofJson (OutputTuple.toJson inputs) <;> rfl

/-- A runner that repeats its request returns the tensors that were sent if all their elements are
finite. It is started on others too, and its answer is refused for a null among the numbers. -/
theorem infer_of_repeats (hsize : (request inputs).text.utf8ByteSize < Command.maxStdinBytes)
    (hstarted : host.run (s.runnerInvocation c inputs) fs = .ok (completion, after))
    (hrepeats : completion.Repeats (request inputs).text) :
    ((∀ t ∈ inputs, t.Finite) → (infer host s c inputs).outcome fs = (.ok inputs, after)) ∧
      ((∃ t ∈ inputs, ¬ t.Finite) →
        (infer host s c inputs).outcome fs =
          (.error (.output (.malformed (.wrongType none) (repeated (request inputs).text))),
            after)) := by
  rw [outcome_infer_repeated hsize hstarted hrepeats]
  constructor
  · intro hfinite
    rw [OutputTuple.ofJson_toJson hfinite]
    rfl
  · intro hinfinite
    rw [OutputTuple.ofJson_toJson_eq_error hinfinite]
    rfl

section Repeating

/-- A host whose commands leave a mark and repeat what they read. -/
def repeating : Host where
  run i fs :=
    let answers := (i.stdin.bind (String.fromUTF8? ·)).toList.map fun text => (repeated text).toUTF8
    .ok (⟨answers, [], .exited 0⟩, fs.put ["started"] (.file .empty))

def repeatingSettings : ProcessSettings where
  converter := { program := "converter" }
  runner := { program := "runner" }
  workDir := ⟨"w"⟩

theorem run_repeating (fs : FileSystem) {i : Invocation} {request : String}
    (hstdin : i.stdin = some request.toUTF8) :
    ∃ completion, completion.Repeats request ∧
      repeating.run i fs = .ok (completion, fs.put ["started"] (.file .empty)) := by
  refine ⟨⟨[(repeated request).toUTF8], [], .exited 0⟩, ⟨?_, Nat.zero_le _, rfl⟩, ?_⟩
  · rw [streamBytes, List.flatMap_singleton, toList_bytes]
  · simp only [repeating, hstdin, Option.bind_some, fromUTF8?_toUTF8, Option.toList_some,
      List.map_cons, List.map_nil]

def ordinary : Tensor Float := ⟨[1, 2], #[0.25, -1.5], by decide⟩

theorem infer_repeating_ordinary :
    (request [ordinary]).text.utf8ByteSize < Command.maxStdinBytes ∧
      (infer repeating repeatingSettings ⟨⟨"a"⟩, ⟨"b"⟩⟩ [ordinary]).outcome {} =
        (.ok [ordinary], FileSystem.put {} ["started"] (.file .empty)) := by
  have hsize : (request [ordinary]).text.utf8ByteSize < Command.maxStdinBytes := by decide +kernel
  obtain ⟨completion, hrepeats, hstarted⟩ := run_repeating {}
    (i := repeatingSettings.runnerInvocation ⟨⟨"a"⟩, ⟨"b"⟩⟩ [ordinary]) rfl
  have hfinite : ∀ t ∈ [ordinary], t.Finite := by
    unfold Tensor.Finite
    decide +kernel
  exact ⟨hsize, (infer_of_repeats hsize hstarted hrepeats).1 hfinite⟩

/-- No number. -/
def hollow : Tensor Float := ⟨[1], #[0.0 / 0.0], by decide⟩

/-- A runner is started on what has no number, and only its answer is refused. -/
theorem infer_repeating_hollow :
    (request [hollow]).text.utf8ByteSize < Command.maxStdinBytes ∧
      (infer repeating repeatingSettings ⟨⟨"a"⟩, ⟨"b"⟩⟩ [hollow]).outcome {} =
        (.error (.output (.malformed (.wrongType none) (repeated (request [hollow]).text))),
          FileSystem.put {} ["started"] (.file .empty)) := by
  have hsize : (request [hollow]).text.utf8ByteSize < Command.maxStdinBytes := by decide +kernel
  obtain ⟨completion, hrepeats, hstarted⟩ := run_repeating {}
    (i := repeatingSettings.runnerInvocation ⟨⟨"a"⟩, ⟨"b"⟩⟩ [hollow]) rfl
  have hinfinite : ∃ t ∈ [hollow], ¬ t.Finite := by
    unfold Tensor.Finite
    decide +kernel
  refine ⟨hsize, ?_⟩
  rw [outcome_infer_repeated hsize hstarted hrepeats,
    OutputTuple.ofJson_toJson_eq_error hinfinite]
  rfl

end Repeating

end ProcessSettings

end TensorParity
