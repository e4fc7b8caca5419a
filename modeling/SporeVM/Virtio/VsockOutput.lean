import SporeVM.Virtio.VsockStream

/-!
# The output of a stream

The guest sends its output in frames, and the frames come in packets that may end anywhere. What the
parser has read does not depend on where they end: a piece after a piece is read as the two in a
row.

So the input is a row of frames. Every frame that has been read is listed, the last perhaps not to
its end, and each output is the payloads of its data frames in a row. Their offsets leave no gap and
do not overlap. -/

namespace SporeVM.Virtio

open Lib
open List

variable {buf input : Bytes} {id : StreamId}

def StreamId.isOutput : StreamId → Bool
  | .stdout | .stderr | .terminal => true
  | .control | .stdin => false

/-- A frame of which `remaining` bytes are to come was accepted: it carries output, or what is to
come has room after what has been read. -/
def FrameHeader.Fits (h : FrameHeader) (control : Bytes) (remaining : ℕ) : Prop :=
  match h.frameType with
  | .data => h.streamId.isOutput
  | .exit | .event | .err => control.length + remaining ≤ maxV1ControlPayload
  | .close | .resize | .signal => True

namespace OutputParser

def need (p : OutputParser) : ℕ :=
  match p.payload with
  | some (_, remaining) => remaining
  | none => frameHeaderLen - p.headerBuf.length

def Ended (p : OutputParser) : Prop := p.state = .failed ∨ p.state = .complete

def Framed (p : OutputParser) : Prop :=
  ∀ header remaining, p.payload = some (header, remaining) → header.Fits p.controlPayload remaining

def withPayload (p : OutputParser) (header : FrameHeader) {remaining : ℕ} (h : 0 < remaining) :
    OutputParser :=
  { p with
    payload := some (header, remaining)
    payload_pos := fun q hq => by cases hq; exact h }

variable {p : OutputParser} {header : FrameHeader} {remaining : ℕ} {a b : Bytes}

-- ══ Pieces of a payload

lemma saturate_saturate (m n : ℕ) : saturate (saturate m + n) = saturate (m + n) := by
  unfold saturate
  omega

lemma emitOutput_append (hid : id.isOutput) :
    p.emitOutput id (a ++ b) = (p.emitOutput id a).emitOutput id b := by
  cases id with
  | stdout => simp [emitOutput, emit, saturate_saturate, Nat.add_assoc]
  | stderr => simp [emitOutput, emit, saturate_saturate, Nat.add_assoc]
  | terminal => simp [emitOutput, emit, saturate_saturate, Nat.add_assoc]
  | control => cases hid
  | stdin => cases hid

lemma emitOutput_state (hid : id.isOutput) :
    (p.emitOutput id a).state = p.state ∧ (p.emitOutput id a).controlPayload = p.controlPayload
    := by
  cases id with
  | control => cases hid
  | stdin => cases hid
  | _ => exact ⟨rfl, rfl⟩

variable (hfits : header.Fits p.controlPayload remaining)

include hfits

lemma handleV1PayloadBytes_fits
    (hlen : a.length ≤ remaining) :
    (header.frameType = .data ∧ header.streamId.isOutput ∧
        p.handleV1PayloadBytes header a = p.emitOutput header.streamId a) ∨
      (header.frameType ≠ .data ∧
        p.handleV1PayloadBytes header a = { p with controlPayload := p.controlPayload ++ a }) ∨
      (header.frameType ≠ .data ∧ p.handleV1PayloadBytes header a = p) := by
  unfold FrameHeader.Fits at hfits
  unfold handleV1PayloadBytes
  cases htype : header.frameType <;> simp only [htype] at hfits
  case data => exact .inl ⟨rfl, hfits, rfl⟩
  case exit | event | err =>
    refine .inr (.inl ⟨by decide, ?_⟩)
    have hroom : ¬ p.controlPayload.length + a.length > maxV1ControlPayload := by omega
    exact if_neg hroom
  all_goals exact .inr (.inr ⟨by decide, rfl⟩)

lemma handleV1PayloadBytes_append
    (hlen : a.length + b.length ≤ remaining) : p.handleV1PayloadBytes header (a ++ b) =
      (p.handleV1PayloadBytes header a).handleV1PayloadBytes header b := by
  unfold FrameHeader.Fits at hfits
  unfold handleV1PayloadBytes
  cases htype : header.frameType <;> simp only [htype] at hfits ⊢
  case data => exact emitOutput_append hfits
  case exit | event | err =>
    have hfirst : ¬ p.controlPayload.length + a.length > maxV1ControlPayload := by omega
    have hboth : ¬ p.controlPayload.length + (a ++ b).length > maxV1ControlPayload := by
      rw [length_append]
      omega
    have hsecond : ¬ (p.controlPayload ++ a).length + b.length > maxV1ControlPayload := by
      rw [length_append]
      omega
    rw [if_neg hfirst, if_neg hboth]
    simp only [if_neg hsecond, append_assoc]

lemma handleV1PayloadBytes_keeps
    (hlen : a.length ≤ remaining) : (p.handleV1PayloadBytes header a).state = p.state ∧
      header.Fits (p.handleV1PayloadBytes header a).controlPayload (remaining - a.length) := by
  have hshrink : ∀ {control control' : Bytes} {n : ℕ},
      control'.length + n ≤ control.length + remaining →
      header.Fits control remaining → header.Fits control' n := by
    intro control control' n hle h
    unfold FrameHeader.Fits at h ⊢
    cases htype : header.frameType <;> simp only [htype] at h ⊢
    case data => exact h
    all_goals omega
  rcases handleV1PayloadBytes_fits hfits hlen with ⟨-, hid, heq⟩ | ⟨-, heq⟩ | ⟨-, heq⟩
  · obtain ⟨hstate, hcontrol⟩ := emitOutput_state hid
    rw [heq, hcontrol]
    exact ⟨hstate, hshrink (by omega) hfits⟩
  · rw [heq]
    refine ⟨rfl, hshrink ?_ hfits⟩
    rw [length_append]
    omega
  · rw [heq]
    exact ⟨rfl, hshrink (by omega) hfits⟩

omit hfits

lemma handleV1PayloadBytes_withPayload (h : 0 < remaining) :
    (p.withPayload header h).handleV1PayloadBytes header a =
      (p.handleV1PayloadBytes header a).withPayload header h := by
  unfold handleV1PayloadBytes
  cases header.frameType <;> dsimp only
  case data => cases header.streamId <;> rfl
  case exit | event | err =>
    show (if _ then _ else _) = withPayload (if _ then _ else _) header h
    rw [apply_ite fun q : OutputParser => q.withPayload header h]
    rfl

lemma endFrame_withPayload (h : 0 < remaining) :
    ((p.withPayload header h).finishV1Frame header).endFrame =
    (p.finishV1Frame header).endFrame := by
  unfold finishV1Frame
  cases header.frameType <;> dsimp only
  case exit =>
    rw [apply_ite endFrame, apply_ite endFrame]
    rfl
  case event =>
    iterate 4 rw [apply_ite endFrame]
    rfl
  all_goals rfl

lemma readPayload_part (hlen : a.length < remaining) : p.readPayload header remaining a =
      (p.handleV1PayloadBytes header a).withPayload header (Nat.sub_pos_of_lt hlen) := by
  unfold readPayload
  rw [take_of_length_le hlen.le]
  exact dif_neg (Nat.sub_ne_zero_of_lt hlen)

lemma readPayload_end (hlen : remaining ≤ a.length) : p.readPayload header remaining a =
      ((p.handleV1PayloadBytes header (a.take remaining)).finishV1Frame header).endFrame := by
  exact dif_pos (Nat.sub_eq_zero_of_le hlen)

lemma readPayload_append (hfits : header.Fits p.controlPayload remaining)
    (hlen : a.length < remaining) : p.readPayload header remaining (a ++ b) =
      (p.readPayload header remaining a).readPayload header (remaining - a.length) b := by
  have htake : (a ++ b).take remaining = a ++ b.take (remaining - a.length) := by
    rw [take_append, take_of_length_le hlen.le]
  have hsplit := handleV1PayloadBytes_append (a := a) (b := b.take (remaining - a.length)) hfits
    (by rw [length_take]; omega)
  rw [readPayload_part hlen]
  by_cases hend : remaining ≤ (a ++ b).length
  · have hend' : remaining - a.length ≤ b.length := by
      rw [length_append] at hend
      omega
    rw [readPayload_end hend, readPayload_end hend', htake, hsplit,
      handleV1PayloadBytes_withPayload, endFrame_withPayload]
  · have hpart' : b.length < remaining - a.length := by
      rw [length_append] at hend
      omega
    have hrest : remaining - (a ++ b).length = remaining - a.length - b.length := by
      rw [length_append]
      omega
    rw [take_of_length_le hpart'.le] at hsplit
    rw [readPayload_part (Nat.lt_of_not_le hend), readPayload_part hpart', hsplit,
      handleV1PayloadBytes_withPayload]
    unfold withPayload
    simp only [hrest]

-- ══ Pieces of a header

def withHeader (p : OutputParser) {buf : Bytes} (h : buf.length < frameHeaderLen) : OutputParser :=
  { p with headerBuf := buf, headerBuf_lt := h }

lemma startFrame_withHeader {whole : Bytes} (h : buf.length < frameHeaderLen) :
    (p.withHeader h).startFrame whole = p.startFrame whole := rfl

lemma readHeaderBytes_part (hlen : p.headerBuf.length + a.length < frameHeaderLen) :
    p.readHeaderBytes a =
      @withHeader p (p.headerBuf ++ a) (by rw [length_append]; exact hlen) := by
  have htake : a.take (frameHeaderLen - p.headerBuf.length) = a := take_of_length_le (by omega)
  have hpart : (p.headerBuf ++ a).length < frameHeaderLen := by
    rw [length_append]
    exact hlen
  unfold readHeaderBytes
  simp only [htake]
  exact dif_pos hpart

lemma readHeaderBytes_end (hlen : frameHeaderLen ≤ p.headerBuf.length + a.length) :
    p.readHeaderBytes a =
      p.startFrame (p.headerBuf ++ a.take (frameHeaderLen - p.headerBuf.length)) := by
  refine dif_neg ?_
  rw [length_append, length_take]
  omega

lemma readHeaderBytes_append (hlen : p.headerBuf.length + a.length < frameHeaderLen) :
    p.readHeaderBytes (a ++ b) = (p.readHeaderBytes a).readHeaderBytes b := by
  have hbuf : (p.headerBuf ++ a).length = p.headerBuf.length + a.length := length_append
  rw [readHeaderBytes_part hlen]
  by_cases hend : frameHeaderLen ≤ p.headerBuf.length + (a ++ b).length
  · have hend' : frameHeaderLen ≤ (p.headerBuf ++ a).length + b.length := by
      rw [length_append] at hend
      omega
    have htake : (a ++ b).take (frameHeaderLen - p.headerBuf.length) =
        a ++ b.take (frameHeaderLen - (p.headerBuf ++ a).length) := by
      rw [take_append, take_of_length_le (by omega), hbuf, Nat.sub_sub]
    rw [readHeaderBytes_end hend, readHeaderBytes_end hend', htake,
      ← append_assoc, startFrame_withHeader]
    rfl
  · have hpart' : (p.headerBuf ++ a).length + b.length < frameHeaderLen := by
      rw [length_append] at hend
      omega
    rw [readHeaderBytes_part (Nat.lt_of_not_le hend), readHeaderBytes_part hpart']
    simp [withHeader]

-- ══ Turns

lemma endFrame_framed (p : OutputParser) : p.endFrame.Framed := by
  intro header remaining h
  cases h

lemma startFrame_framed (hnone : p.payload = none) (buf : Bytes) : (p.startFrame buf).Framed := by
  have hclear : ∀ {q : OutputParser}, q.payload = none → q.Framed := by
    intro q hq header remaining h
    rw [hq] at h
    cases h
  unfold startFrame
  dsimp only
  split
  · exact hclear hnone
  · next header _ =>
    split
    · exact hclear hnone
    · next hvalid =>
      split
      · exact endFrame_framed _
      · intro header' remaining h
        cases h
        -- what `validateV1Header` has accepted
        unfold validateV1Header at hvalid
        unfold FrameHeader.Fits
        cases htype : header.frameType <;>
          simp only [htype, Bool.not_eq_false, Bool.and_eq_true, Bool.and_false,
            decide_eq_true_iff] at hvalid ⊢
        case data => cases hid : header.streamId <;> simp_all [StreamId.isOutput]
        case exit =>
          rw [hvalid.2.2]
          decide
        case event | err =>
          rw [length_nil, Nat.zero_add]
          exact hvalid.2.2

lemma turn_framed (h : p.Framed) (data : Bytes) : (p.turn data).1.Framed := by
  unfold turn
  split
  · next header remaining hpayload =>
    have hfits := h header remaining hpayload
    by_cases hlen : data.length < remaining
    · intro header' remaining' heq
      rw [readPayload_part hlen] at heq ⊢
      cases heq
      exact (handleV1PayloadBytes_keeps hfits hlen.le).2
    · rw [readPayload_end (Nat.le_of_not_lt hlen)]
      exact endFrame_framed _
  · next hnone =>
    by_cases hlen : p.headerBuf.length + data.length < frameHeaderLen
    · rw [readHeaderBytes_part hlen]
      exact h
    · rw [readHeaderBytes_end (Nat.le_of_not_lt hlen)]
      exact startFrame_framed hnone _

lemma turn_append_of_need_le (h : p.need ≤ a.length) :
    p.turn (a ++ b) = ((p.turn a).1, (p.turn a).2 ++ b) := by
  cases hpayload : p.payload with
  | some frame =>
    simp only [need, hpayload] at h
    have hboth : frame.2 ≤ (a ++ b).length := by
      rw [length_append]
      omega
    simp only [turn, hpayload]
    rw [readPayload_end hboth, readPayload_end h, take_append_of_le_length h,
      drop_append_of_le_length h]
  | none =>
    simp only [need, hpayload] at h
    have hboth : frameHeaderLen ≤ p.headerBuf.length + (a ++ b).length := by
      rw [length_append]
      omega
    simp only [turn, hpayload]
    rw [readHeaderBytes_end hboth, readHeaderBytes_end (by omega), take_append_of_le_length h,
      drop_append_of_le_length h]

lemma turn_append_of_lt_need (hframed : p.Framed) (h : a.length < p.need) :
    (p.turn a).2 = [] ∧ (p.turn a).1.state = p.state ∧ p.turn (a ++ b) = (p.turn a).1.turn b := by
  unfold need at h
  split at h
  · next header remaining hpayload =>
    have hfits := hframed header remaining hpayload
    have hturn : p.turn a = (p.readPayload header remaining a, a.drop remaining) := by
      rw [turn, hpayload]
    have hpart := @readPayload_part p header remaining a h
    refine ⟨?_, ?_, ?_⟩
    · rw [hturn]
      exact drop_eq_nil_of_le h.le
    · rw [hturn, hpart]
      exact (handleV1PayloadBytes_keeps hfits h.le).1
    · have hnext : (p.readPayload header remaining a).payload =
          some (header, remaining - a.length) := by
        rw [hpart]
        rfl
      rw [hturn, turn, turn, hpayload, hnext]
      dsimp only
      rw [readPayload_append hfits h, drop_append, drop_eq_nil_of_le h.le, nil_append]
  · next hnone =>
    have hturn : p.turn a =
        (p.readHeaderBytes a, a.drop (frameHeaderLen - p.headerBuf.length)) := by
      rw [turn, hnone]
    have hlen : p.headerBuf.length + a.length < frameHeaderLen := by omega
    have hpart := readHeaderBytes_part hlen
    refine ⟨?_, ?_, ?_⟩
    · rw [hturn]
      exact drop_eq_nil_of_le h.le
    · rw [hturn, hpart]
      rfl
    · have hnext : (p.readHeaderBytes a).payload = none ∧
          (p.readHeaderBytes a).headerBuf = p.headerBuf ++ a := by
        rw [hpart]
        exact ⟨hnone, rfl⟩
      rw [hturn, turn, turn, hnone, hnext.1]
      rw [readHeaderBytes_append hlen, hnext.2, drop_append, drop_eq_nil_of_le h.le,
        nil_append, length_append, Nat.sub_sub]

-- ══ Reading

lemma read_of_ended (h : p.Ended) (data : Bytes) : p.read data = p := by
  rw [read, dif_pos (.inr h)]

lemma read_nil (p : OutputParser) : p.read [] = p := by
  rw [read, dif_pos (.inl rfl)]

lemma read_turn (hlive : ¬ p.Ended) {data : Bytes} (h : data ≠ []) :
    p.read data = (p.turn data).1.read (p.turn data).2 := by
  rw [read, dif_neg]
  rintro (hnil | hended)
  · exact h hnil
  · exact hlive hended

lemma read_framed (h : p.Framed) (data : Bytes) : (p.read data).Framed := by
  fun_induction read p data with
  | case1 => exact h
  | case2 p data _ _ ih => exact ih (turn_framed h data)

/-- **Pieces.** The bytes after a piece are read as they are in a row with it. -/
theorem read_append (h : p.Framed) (a b : Bytes) : p.read (a ++ b) = (p.read a).read b := by
  fun_induction read p a with
  | case1 p a hstop =>
    rcases hstop with rfl | hended
    · rfl
    · rw [read_of_ended hended, read_of_ended hended]
  | case2 p a hgo _ ih =>
    have hlive : ¬ p.Ended := fun hended => hgo (.inr hended)
    have ha : a ≠ [] := fun hnil => hgo (.inl hnil)
    have hab : a ++ b ≠ [] := fun hnil => ha (append_eq_nil_iff.mp hnil).1
    rw [read_turn hlive hab]
    by_cases hneed : p.need ≤ a.length
    · rw [turn_append_of_need_le hneed]
      exact ih (turn_framed h a)
    · -- the turn has used up the first piece, and goes on with the second
      obtain ⟨hnil, hstate, hturn⟩ := turn_append_of_lt_need h (Nat.lt_of_not_le hneed)
      rw [hnil, read_nil, hturn]
      by_cases hb : b = []
      · subst hb
        rw [append_nil] at hturn
        rw [← hturn, hnil, read_nil]
      · have hlive' : ¬ (p.turn a).1.Ended := by
          unfold Ended
          rw [hstate]
          exact hlive
        rw [← read_turn hlive' hb]

lemma foldl_read (pieces : List Bytes) (h : p.Framed) :
    pieces.foldl read p = p.read pieces.flatten := by
  induction pieces generalizing p with
  | nil => exact (read_nil p).symm
  | cons piece pieces ih =>
    rw [foldl_cons, flatten_cons, read_append h, ih (read_framed h piece)]

end OutputParser

-- ══ Frames

structure Frame where
  header : FrameHeader
  payload : Bytes

namespace Frame

def bytes (f : Frame) : Bytes := writeFrameHeader f.header ++ f.payload

def data (f : Frame) (id : StreamId) : Bytes :=
  if f.header.frameType = .data ∧ f.header.streamId = id then f.payload else []

def dataOf (frames : List Frame) (id : StreamId) : Bytes := frames.flatMap fun f => f.data id

lemma dataOf_concat (frames : List Frame) (f : Frame) (id : StreamId) :
    dataOf (frames ++ [f]) id = dataOf frames id ++ f.data id := by
  simp [dataOf]

/-- The data frames of each output follow one another without gap or overlap from the given offsets
on, until these saturate. -/
def Consecutive (start : StreamId → ℕ) (frames : List Frame) : Prop :=
  ∀ before f after, frames = before ++ f :: after → f.header.frameType = .data →
    f.header.streamId.isOutput ∧
      f.header.offset = OutputParser.saturate
        (start f.header.streamId + (dataOf before f.header.streamId).length)

lemma Consecutive.concat {start : StreamId → ℕ} {frames : List Frame} {f : Frame}
    (h : Consecutive start frames) (hf : f.header.frameType = .data → f.header.streamId.isOutput ∧
      f.header.offset = OutputParser.saturate
        (start f.header.streamId + (dataOf frames f.header.streamId).length)) :
    Consecutive start (frames ++ [f]) := by
  intro before g after heq
  rcases eq_nil_or_concat after with rfl | ⟨after, last, rfl⟩
  · obtain ⟨rfl, hg⟩ := append_inj' heq rfl
    cases hg
    exact hf
  · rw [concat_eq_append, ← cons_append, ← append_assoc] at heq
    obtain ⟨hframes, -⟩ := append_inj' heq rfl
    exact h before g after hframes

lemma Consecutive.last {start : StreamId → ℕ} {frames : List Frame} {header : FrameHeader}
    {payload : Bytes} (h : Consecutive start (frames ++ [⟨header, payload⟩])) (payload' : Bytes) :
    Consecutive start (frames ++ [⟨header, payload'⟩]) := by
  have hinit : Consecutive start frames := by
    intro before g after heq
    exact h before g (after ++ [⟨header, payload⟩]) (by rw [heq, append_assoc]; rfl)
  exact hinit.concat (h frames ⟨header, payload⟩ [] rfl)

end Frame

lemma ofNat_readInt {off : ℕ} (h : off + 1 ≤ buf.length) :
    [UInt8.ofNat (readInt buf off 1)] = bytesAt buf off 1 := by
  have hlen := length_bytesAt h
  have hdigits := littleEndian_ofLittleEndian (bytesAt buf off 1)
  rw [hlen] at hdigits
  have hlt := ofLittleEndian_lt (bytesAt buf off 1)
  rw [hlen] at hlt
  rw [← hdigits, littleEndian, littleEndian, Nat.mod_eq_of_lt (by simpa using hlt)]
  rfl

lemma littleEndian_readInt {off len : ℕ} (h : off + len ≤ buf.length) :
    littleEndian (readInt buf off len) len = bytesAt buf off len := by
  have hdigits := littleEndian_ofLittleEndian (bytesAt buf off len)
  rwa [length_bytesAt h] at hdigits

/-- **Headers.** A header that can be read is written back as it was. -/
theorem writeFrameHeader_readFrameHeader {header : FrameHeader} (hlen : buf.length = frameHeaderLen)
    (h : readFrameHeader buf = .ok header) : writeFrameHeader header = buf := by
  have hlen : buf.length = 24 := hlen
  unfold readFrameHeader at h
  split at h
  · cases h
  · next hmagic =>
    split at h
    · cases h
    · next hversion =>
      split at h
      · cases h
      · cases h
      · next frameType streamId htype hid =>
        split at h
        · cases h
        · cases h
          have htype : frameType.code = readInt buf 5 1 := by simpa using List.find?_some htype
          have hid : streamId.code = readInt buf 8 4 := by simpa using List.find?_some hid
          have hversion : [frameVersion] = bytesAt buf 4 1 := by
            rw [← ofNat_readInt (by omega), not_not.mp hversion]
            rfl
          have hfields : buf = buf.take 4 ++ (bytesAt buf 4 1 ++ (bytesAt buf 5 1 ++
              (bytesAt buf 6 2 ++ (bytesAt buf 8 4 ++ (bytesAt buf 12 8 ++
                bytesAt buf 20 4))))) := by
            have hend : buf.drop 24 = [] := drop_eq_nil_of_le hlen.le
            conv_lhs => rw [← take_append_drop 4 buf, drop_eq_bytesAt_append buf 4 1,
              drop_eq_bytesAt_append buf (4 + 1) 1, drop_eq_bytesAt_append buf (4 + 1 + 1) 2,
              drop_eq_bytesAt_append buf (4 + 1 + 1 + 2) 4,
              drop_eq_bytesAt_append buf (4 + 1 + 1 + 2 + 4) 8,
              drop_eq_bytesAt_append buf (4 + 1 + 1 + 2 + 4 + 8) 4, hend, append_nil]
          unfold writeFrameHeader
          rw [htype, hid]
          iterate 4 rw [littleEndian_readInt (by omega)]
          conv_rhs => rw [hfields, ← hversion, ← ofNat_readInt (by omega), not_not.mp hmagic]
          simp only [append_assoc, cons_append, nil_append]

-- ══ The input as frames

namespace OutputParser

open Virtio.Frame (dataOf Consecutive dataOf_concat)

def offset (p : OutputParser) : StreamId → ℕ
  | .stdout => p.stdoutOffset
  | .stderr => p.stderrOffset
  | .terminal => p.terminalOffset
  | .control | .stdin => 0

def output (p : OutputParser) (id : StreamId) : Bytes :=
  (p.emitted.filter fun e => e.1 = id).map Prod.snd

def outputs (p : OutputParser) : ℕ × ℕ × ℕ × List (StreamId × UInt8) :=
  (p.stdoutOffset, p.stderrOffset, p.terminalOffset, p.emitted)

def start (state : HostStreamState) (stdout stderr terminal : UInt64) : OutputParser where
  state := state
  stdoutOffset := stdout.toNat
  stderrOffset := stderr.toNat
  terminalOffset := terminal.toNat

structure Account (start : StreamId → ℕ) (p : OutputParser) (frames : List Frame) : Prop where
  consecutive : Consecutive start frames
  output : ∀ id, p.output id = dataOf frames id
  offset : ∀ id, id.isOutput → p.offset id = saturate (start id + (dataOf frames id).length)

/-- The input as the frames that have been read and the rest. A stream that has ended leaves any
rest. Otherwise the parser waits in the middle of a header, which is the rest, or in the middle of a
frame, which is the last. -/
inductive Progress (start : StreamId → ℕ) (input : Bytes) (p : OutputParser) : List Frame →
    Option Frame → Bytes → Prop
  | ended {frames rest} (hended : p.Ended) (haccount : p.Account start frames)
      (hbytes : input = frames.flatMap Frame.bytes ++ rest) : Progress start input p
      frames none rest
  | header {frames} (hlive : ¬ p.Ended) (hpayload : p.payload = none)
      (haccount : p.Account start frames)
      (hbytes : input = frames.flatMap Frame.bytes ++ p.headerBuf) :
      Progress start input p frames none p.headerBuf
  | payload {frames header seen remaining} (hlive : ¬ p.Ended)
      (hpayload : p.payload = some (header, remaining)) (hbuf : p.headerBuf = [])
      (hlen : seen.length + remaining = header.payloadLen)
      (haccount : p.Account start (frames ++ [⟨header, seen⟩]))
      (hbytes : input = (frames ++ [⟨header, seen⟩]).flatMap Frame.bytes) :
      Progress start input p frames (some ⟨header, seen⟩) []

section Progress

variable {p q : OutputParser} {origin : StreamId → ℕ} {frames : List Frame} {header : FrameHeader}
  {seen : Bytes} {remaining : ℕ}

lemma output_congr (h : q.outputs = p.outputs) (id : StreamId) :
    q.output id = p.output id ∧ q.offset id = p.offset id := by
  simp only [outputs, Prod.mk.injEq] at h
  obtain ⟨hstdout, hstderr, hterminal, hemitted⟩ := h
  refine ⟨by rw [output, output, hemitted], ?_⟩
  cases id <;> simp only [offset, hstdout, hstderr, hterminal]

lemma Account.congr (h : p.Account origin frames) (houtputs : q.outputs = p.outputs) :
    q.Account origin frames := by
  refine ⟨h.consecutive, fun id => ?_, fun id hid => ?_⟩
  · rw [(output_congr houtputs id).1, h.output]
  · rw [(output_congr houtputs id).2, h.offset id hid]

lemma Account.concat_nil (h : p.Account origin frames)
    (hheader : header.frameType = .data → header.streamId.isOutput ∧
      header.offset = p.offset header.streamId) : p.Account origin (frames ++ [⟨header, []⟩]) := by
  have hnone : ∀ id, dataOf (frames ++ [⟨header, []⟩]) id = dataOf frames id := by
    intro id
    rw [dataOf_concat, Frame.data, ite_self, append_nil]
  refine ⟨h.consecutive.concat fun htype => ?_, fun id => ?_, fun id hid => ?_⟩
  · obtain ⟨hid, hoffset⟩ := hheader htype
    exact ⟨hid, hoffset.trans (h.offset _ hid)⟩
  · rw [hnone, h.output]
  · rw [hnone, h.offset id hid]

lemma output_emitOutput {id' : StreamId} (hid : id.isOutput) (data : Bytes) :
    (p.emitOutput id data).output id' = p.output id' ++ if id = id' then data else [] := by
  have hemitted : (p.emitOutput id data).emitted = p.emitted ++ data.map fun b => (id, b) := by
    cases id with
    | control => cases hid
    | stdin => cases hid
    | _ => rfl
  rw [output, output, hemitted, filter_append, map_append]
  congr 1
  split
  · next heq => simp [heq, filter_map, Function.comp_def]
  · next hne => simp [hne, filter_map, Function.comp_def]

lemma offset_emitOutput {id' : StreamId} (hid : id.isOutput) (data : Bytes) :
    (p.emitOutput id data).offset id' =
      if id = id' then saturate (p.offset id' + data.length) else p.offset id' := by
  cases id with
  | control => cases hid
  | stdin => cases hid
  | stdout => cases id' <;> rfl
  | stderr => cases id' <;> rfl
  | terminal => cases id' <;> rfl

lemma Account.handleV1PayloadBytes (h : p.Account origin (frames ++ [⟨header, seen⟩]))
    (hfits : header.Fits p.controlPayload remaining) {data : Bytes}
    (hlen : data.length ≤ remaining) :
    (p.handleV1PayloadBytes header data).Account origin (frames ++ [⟨header, seen ++ data⟩]) := by
  have hconsecutive := h.consecutive.last (seen ++ data)
  have hdata : ∀ id, dataOf (frames ++ [⟨header, seen ++ data⟩]) id =
      dataOf (frames ++ [⟨header, seen⟩]) id ++ Frame.data ⟨header, data⟩ id := by
    intro id
    rw [dataOf_concat, dataOf_concat, append_assoc]
    congr 1
    unfold Frame.data
    split <;> rfl
  rcases handleV1PayloadBytes_fits hfits hlen with ⟨htype, hout, heq⟩ | ⟨htype, heq⟩ | ⟨htype, heq⟩
  · rw [heq]
    have hframe : ∀ id, Frame.data ⟨header, data⟩ id =
        if header.streamId = id then data else [] := by
      intro id
      simp [Frame.data, htype]
    refine ⟨hconsecutive, fun id => ?_, fun id hid => ?_⟩
    · rw [output_emitOutput hout, hdata, hframe, h.output]
    · rw [offset_emitOutput hout, hdata, hframe, h.offset id hid]
      split
      · rw [saturate_saturate, length_append, Nat.add_assoc]
      · rw [append_nil]
  all_goals
    have hframe : ∀ id, Frame.data ⟨header, data⟩ id = [] := by
      intro id
      simp [Frame.data, htype]
    have haccount : p.Account origin (frames ++ [⟨header, seen ++ data⟩]) := by
      refine ⟨hconsecutive, fun id => ?_, fun id hid => ?_⟩
      · rw [hdata, hframe, append_nil, h.output]
      · rw [hdata, hframe, append_nil, h.offset id hid]
    rw [heq]
    exact haccount.congr rfl

lemma finishV1Frame_keeps (p : OutputParser) (header : FrameHeader) :
    (p.finishV1Frame header).outputs = p.outputs ∧
      (p.finishV1Frame header).headerBuf = p.headerBuf := by
  unfold finishV1Frame
  cases header.frameType <;> dsimp only
  case exit => split <;> exact ⟨rfl, rfl⟩
  case event =>
    split
    · exact ⟨rfl, rfl⟩
    · split <;> exact ⟨rfl, rfl⟩
  all_goals exact ⟨rfl, rfl⟩

lemma handleV1PayloadBytes_headerBuf (p : OutputParser) (header : FrameHeader) (data : Bytes) :
    (p.handleV1PayloadBytes header data).headerBuf = p.headerBuf := by
  unfold handleV1PayloadBytes
  cases header.frameType <;> dsimp only
  case data => cases header.streamId <;> rfl
  case exit | event | err => split <;> rfl

def Reached (start : StreamId → ℕ) (input : Bytes) (p : OutputParser) : Prop :=
  ∃ frames part rest, Progress start input p frames part rest ∧
    ∀ f ∈ frames, f.payload.length = f.header.payloadLen

lemma Reached.more (h : p.Reached origin input) (hended : p.Ended) (more : Bytes) :
    p.Reached origin (input ++ more) := by
  obtain ⟨frames, part, rest, hprogress, hwhole⟩ := h
  cases hprogress with
  | ended _ haccount hbytes =>
    refine ⟨frames, none, rest ++ more, .ended hended haccount ?_, hwhole⟩
    rw [hbytes, append_assoc]
  | header hlive => exact absurd hended hlive
  | payload hlive => exact absurd hended hlive

lemma reached_endFrame (haccount : p.Account origin frames) (hbuf : p.headerBuf = [])
    (hwhole : ∀ f ∈ frames, f.payload.length = f.header.payloadLen) :
    (p.endFrame).Reached origin (frames.flatMap Frame.bytes) := by
  have haccount : p.endFrame.Account origin frames := haccount.congr rfl
  have hbuf : p.endFrame.headerBuf = [] := hbuf
  by_cases hended : p.endFrame.Ended
  · exact ⟨frames, none, [], .ended hended haccount (append_nil _).symm, hwhole⟩
  · refine ⟨frames, none, p.endFrame.headerBuf, .header hended rfl haccount ?_, hwhole⟩
    rw [hbuf, append_nil]

lemma validateV1Header_data (h : p.validateV1Header header = true)
    (htype : header.frameType = .data) :
    header.streamId.isOutput ∧ header.offset = p.offset header.streamId := by
  unfold validateV1Header at h
  cases hid : header.streamId <;> simp_all [StreamId.isOutput, offset]

lemma reached_startFrame (haccount : p.Account origin frames) (hlive : ¬ p.Ended)
    (hwhole : ∀ f ∈ frames, f.payload.length = f.header.payloadLen)
    (hbuf : buf.length = frameHeaderLen) :
    (p.startFrame buf).Reached origin (frames.flatMap Frame.bytes ++ buf) := by
  have hfail : ∀ {q : OutputParser}, q.outputs = p.outputs →
      q.fail.Reached origin (frames.flatMap Frame.bytes ++ buf) := by
    intro q hq
    exact ⟨frames, none, buf, .ended (.inl rfl) (haccount.congr hq) rfl, hwhole⟩
  unfold startFrame
  dsimp only
  split
  · exact hfail rfl
  · next header hread =>
    have hbytes : (frames ++ [(⟨header, []⟩ : Frame)]).flatMap Frame.bytes =
        frames.flatMap Frame.bytes ++ buf := by
      rw [flatMap_append, flatMap_singleton, Frame.bytes, append_nil,
        writeFrameHeader_readFrameHeader hbuf hread]
    split
    · exact hfail rfl
    · next hvalid =>
      have hstart : Account origin p (frames ++ [⟨header, []⟩]) :=
        haccount.concat_nil (validateV1Header_data (eq_true_of_ne_false hvalid))
      split
      · next hempty =>
        rw [← hbytes]
        refine reached_endFrame (hstart.congr (finishV1Frame_keeps _ header).1)
          (finishV1Frame_keeps _ header).2 ?_
        intro f hf
        rcases mem_append.mp hf with hf | hf
        · exact hwhole f hf
        · rw [mem_singleton.mp hf]
          exact hempty.symm
      · exact ⟨frames, some ⟨header, []⟩, [], .payload hlive rfl rfl (Nat.zero_add _)
          (hstart.congr rfl) hbytes.symm, hwhole⟩

/-- **A turn** reads the next part of the input. -/
theorem Reached.turn (h : p.Reached origin input) (hframed : p.Framed) (hlive : ¬ p.Ended)
    (data : Bytes) : (p.turn data).1.Reached origin (input ++ data.take p.need) := by
  obtain ⟨frames, part, rest, hprogress, hwhole⟩ := h
  cases hprogress with
  | ended hended => exact absurd hended hlive
  | header _ hpayload haccount hbytes =>
    have hturn : (p.turn data).1 = p.readHeaderBytes data := by rw [OutputParser.turn, hpayload]
    have hneed : p.need = frameHeaderLen - p.headerBuf.length := by rw [need, hpayload]
    rw [hturn, hneed, hbytes, append_assoc]
    by_cases hlen : p.headerBuf.length + data.length < frameHeaderLen
    · rw [readHeaderBytes_part hlen, take_of_length_le (by omega)]
      exact ⟨frames, none, _, .header hlive hpayload (haccount.congr rfl) rfl, hwhole⟩
    · rw [readHeaderBytes_end (Nat.le_of_not_lt hlen)]
      have hlt := p.headerBuf_lt
      refine reached_startFrame haccount hlive hwhole ?_
      rw [length_append, length_take]
      omega
  | @payload header seen remaining _ hpayload hbuf hlen haccount hbytes =>
    have hfits := hframed header remaining hpayload
    have hturn : (p.turn data).1 = p.readPayload header remaining data := by
      rw [OutputParser.turn, hpayload]
    have hneed : p.need = remaining := by rw [need, hpayload]
    have hmore : ∀ piece, input ++ piece =
        (frames ++ [(⟨header, seen ++ piece⟩ : Frame)]).flatMap Frame.bytes := by
      intro piece
      rw [hbytes]
      simp [Frame.bytes]
    rw [hturn, hneed, hmore]
    by_cases hpart : data.length < remaining
    · have hread := haccount.handleV1PayloadBytes hfits hpart.le
      have hstate := (handleV1PayloadBytes_keeps hfits hpart.le).1
      rw [readPayload_part hpart, take_of_length_le hpart.le]
      refine ⟨frames, some ⟨header, seen ++ data⟩, [], .payload ?_ rfl ?_ ?_ (hread.congr rfl) rfl,
        hwhole⟩
      · show ¬ (p.handleV1PayloadBytes header data).Ended
        unfold Ended
        rw [hstate]
        exact hlive
      · exact (handleV1PayloadBytes_headerBuf p header data).trans hbuf
      · rw [length_append]
        omega
    · have htake : (data.take remaining).length = remaining := by
        rw [length_take]
        omega
      have hread := haccount.handleV1PayloadBytes hfits htake.le
      rw [readPayload_end (Nat.le_of_not_lt hpart)]
      refine reached_endFrame (hread.congr (finishV1Frame_keeps _ header).1) ?_ ?_
      · rw [(finishV1Frame_keeps _ header).2, handleV1PayloadBytes_headerBuf, hbuf]
      · intro f hf
        rcases mem_append.mp hf with hf | hf
        · exact hwhole f hf
        · rw [mem_singleton.mp hf]
          show (seen ++ data.take remaining).length = header.payloadLen
          rw [length_append, htake, hlen]

lemma turn_rest (p : OutputParser) (data : Bytes) : (p.turn data).2 = data.drop p.need := by
  unfold need
  cases hpayload : p.payload <;> rw [OutputParser.turn, hpayload]

/-- **The whole input** is read turn by turn. -/
theorem Reached.read (h : p.Reached origin input) (hframed : p.Framed) (data : Bytes) :
    (p.read data).Reached origin (input ++ data) := by
  fun_induction OutputParser.read p data generalizing input with
  | case1 p data hstop =>
    rcases hstop with rfl | hended
    · rwa [append_nil]
    · exact h.more hended data
  | case2 p data hgo _ ih =>
    have hturn := h.turn hframed (fun hended => hgo (.inr hended)) data
    have hnext := ih hturn (turn_framed hframed data)
    rwa [turn_rest, append_assoc, take_append_drop, ← turn_rest] at hnext

lemma Progress.all {rest : Bytes} {part : Option Frame}
    (h : p.Progress origin input frames part rest) :
    input = (frames ++ part.toList).flatMap Frame.bytes ++ rest ∧
      p.Account origin (frames ++ part.toList) ∧
      (∀ f ∈ part, f.payload.length < f.header.payloadLen ∧ rest = []) ∧
      (p.Ended ∨ rest.length < frameHeaderLen) := by
  cases h with
  | ended hended haccount hbytes =>
    rw [Option.toList_none, append_nil]
    exact ⟨hbytes, haccount, by simp, .inl hended⟩
  | header hlive hpayload haccount hbytes =>
    rw [Option.toList_none, append_nil]
    exact ⟨hbytes, haccount, by simp, .inr p.headerBuf_lt⟩
  | payload hlive hpayload hbuf hlen haccount hbytes =>
    have hpos := p.payload_pos _ hpayload
    refine ⟨hbytes.trans (append_nil _).symm, haccount, ?_, .inr (by decide)⟩
    intro f hf
    cases hf
    exact ⟨by dsimp only at hpos ⊢; omega, rfl⟩

lemma framed_start (state : HostStreamState) (stdout stderr terminal : UInt64) :
    (start state stdout stderr terminal).Framed := by
  intro header remaining h
  cases h

lemma reached_start (state : HostStreamState) (stdout stderr terminal : UInt64) :
    (start state stdout stderr terminal).Reached
      (start state stdout stderr terminal).offset [] := by
  have haccount : Account (start state stdout stderr terminal).offset
      (start state stdout stderr terminal) [] := by
    refine ⟨fun before f after h => by simp at h, fun _ => rfl, fun id hid => ?_⟩
    have hlt : (start state stdout stderr terminal).offset id < 2 ^ 64 := by
      cases id with
      | control => cases hid
      | stdin => cases hid
      | stdout => exact stdout.toNat_lt
      | stderr => exact stderr.toNat_lt
      | terminal => exact terminal.toNat_lt
    exact (Nat.min_eq_left (Nat.le_sub_one_of_lt hlt)).symm
  by_cases hended : (start state stdout stderr terminal).Ended
  · exact ⟨[], none, [], .ended hended haccount rfl, by simp⟩
  · exact ⟨[], none, [], .header hended rfl haccount rfl, by simp⟩

end Progress

end OutputParser

-- ══ The stream

lemma foldl_appendOutput (pieces : List Bytes) (s : HostStream) :
    (pieces.foldl HostStream.appendOutput s).output = pieces.foldl OutputParser.read s.output := by
  induction pieces generalizing s with
  | nil => rfl
  | cons piece pieces ih => exact ih (s.appendOutput piece)

open Virtio.Frame (dataOf Consecutive) in
/-- **Output.** A stream is attached at some offsets, and the guest's bytes come in any pieces. The
parser ends as if they had come at once: with the same state, exit code and offsets, and with the
same bytes given to the sink. The input is a row of frames, the last of which may have been cut
short by the end of the input, and a rest that is too short for a header unless the stream has
ended. Each output is the payloads of its data frames in a row, which follow one another without gap
or overlap from the offset of the attach on, until the offsets saturate. -/
theorem appendOutput_pieces (stream : HostStream) (state : HostStreamState)
    (stdout stderr terminal : UInt64) (pieces : List Bytes) :
    let s : HostStream := { stream with output := .start state stdout stderr terminal }
    let p := (pieces.foldl HostStream.appendOutput s).output
    p = (s.appendOutput pieces.flatten).output ∧
      ∃ (frames : List Frame) (part : Option Frame) (rest : Bytes),
        pieces.flatten = (frames ++ part.toList).flatMap Frame.bytes ++ rest ∧
        (∀ f ∈ frames, f.payload.length = f.header.payloadLen) ∧
        (∀ f ∈ part, f.payload.length < f.header.payloadLen ∧ rest = []) ∧
        (p.Ended ∨ rest.length < frameHeaderLen) ∧
        Consecutive s.output.offset (frames ++ part.toList) ∧
        ∀ id, id.isOutput → p.output id = dataOf (frames ++ part.toList) id ∧
          p.offset id = OutputParser.saturate
            (s.output.offset id + (dataOf (frames ++ part.toList) id).length) := by
  intro s p
  have hframed : s.output.Framed := OutputParser.framed_start state stdout stderr terminal
  have hp : p = s.output.read pieces.flatten :=
    (foldl_appendOutput pieces s).trans (OutputParser.foldl_read pieces hframed)
  refine ⟨hp, ?_⟩
  have hreached : p.Reached s.output.offset pieces.flatten := by
    rw [hp]
    exact (OutputParser.reached_start state stdout stderr terminal).read hframed pieces.flatten
  obtain ⟨frames, part, rest, hprogress, hwhole⟩ := hreached
  obtain ⟨hbytes, haccount, hpart, hrest⟩ := hprogress.all
  exact ⟨frames, part, rest, hbytes, hwhole, hpart, hrest, haccount.consecutive,
    fun id hid => ⟨haccount.output id, haccount.offset id hid⟩⟩

end SporeVM.Virtio
