import SporeVM.Virtio.BlkEffects
import SporeVM.Virtio.Devices

/-!
# Everything a device stores is marked

Snapshots find what the devices have written by the ranges passed to `markDirty`. Whatever guest
memory, the queues and the back ends hold, at the end of a notification or a flush every byte that
the device has stored lies in a range marked during the call. The used ring is marked by each write
to it, and the buffers of a chain right after the device is done with them, before the chain is
given back. -/

namespace SporeVM.Virtio

open Lib.EState (Keeps Triple outcome Stays)
open Queue (Machine DeviceM Covered CoveredBut Within)
open List

-- ══ The block device

variable {status : Queue.Segment}

namespace Blk

variable {Id : Type} [DecidableEq Id] {hash : List UInt8 → Id} {segs : List Queue.Segment}
  {ram : GuestRam}

lemma failStatus_but (hmem : status ∈ segs) (h : CoveredBut segs ram) :
    CoveredBut segs (failStatus status ram).2 := by
  unfold failStatus
  split
  · next hstatus => exact h.store hmem hstatus.1 (Nat.le_refl _) (by simp; omega)
  · exact h

lemma unsupportedStatus_but (hmem : status ∈ segs) (h : CoveredBut segs ram) :
    CoveredBut segs (unsupportedStatus status ram).2 := by
  unfold unsupportedStatus
  split
  · next hstatus => exact h.store hmem hstatus.1 (Nat.le_refl _) (by simp; omega)
  · exact h

lemma status_but (hmem : status ∈ segs) (hwritable : status.writable = true)
    (hlen : status.len ≥ 1) (code : UInt8) (h : CoveredBut segs ram) :
    CoveredBut segs (ram.store status.addr [code]) :=
  h.store hmem hwritable (Nat.le_refl _) (by simp; omega)

lemma okStatus_but (hmem : status ∈ segs) (hwritable : status.writable = true)
    (hlen : status.len ≥ 1) (moved : ℕ) (h : CoveredBut segs ram) :
    CoveredBut segs (okStatus status moved ram).2 := by
  unfold okStatus
  split
  · exact failStatus_but hmem h
  · exact status_but hmem hwritable hlen _ h

lemma Backend.length_readAt {b b' : Backend Id} {len offset : ℕ} {data : List UInt8}
    (h : b.readAt hash len offset = (.ok data, b')) : data.length ≤ len := by
  cases b with
  | file f =>
    simp only [Backend.readAt, Prod.mk.injEq] at h
    have hread := h.1
    unfold HostFile.read at hread
    split at hread
    · cases hread
      exact Nat.zero_le _
    split at hread
    · split at hread
      · cases hread
        rw [Lib.length_slice]
      · cases hread
    · cases hread
  | memory bytes =>
    simp only [Backend.readAt] at h
    split at h
    · cases h
    · cases h
      exact length_take_le _ _
  | chunkMapped s residues =>
    simp only [Backend.readAt] at h
    cases hread : outcome (SporeVM.readAt hash len offset) s with
    | mk result s' =>
      rw [hread] at h
      cases result with
      | error e => cases h
      | ok data' =>
        cases h
        exact (SporeVM.length_readAt (Lib.EState.run_of_reply (congrArg Prod.fst hread))).le

lemma readSegments_but : ∀ {data : List Queue.Segment} {offset : ℕ} {b : Backend Id}
    {ram : GuestRam},
    (∀ seg ∈ data, seg ∈ segs ∧ seg.writable = true) → CoveredBut segs ram →
    CoveredBut segs (readSegments hash data offset b ram).2.2
  | [], _, _, _, _, h => h
  | seg :: rest, offset, b, ram, hdata, h => by
    obtain ⟨⟨hmem, hwritable⟩, hrest⟩ := forall_mem_cons.mp hdata
    simp only [readSegments]
    cases hread : b.readAt hash seg.len offset with
    | mk result b' =>
      cases result with
      | ok data =>
        have hlen := Backend.length_readAt hread
        exact readSegments_but hrest (h.store hmem hwritable (Nat.le_refl _) (by omega))
      | error residue =>
        have hlen := length_take_le seg.len residue
        exact h.store hmem hwritable (Nat.le_refl _) (by omega)

lemma getIdSegments_but : ∀ {data : List Queue.Segment} {moved : ℕ} {ram : GuestRam},
    (∀ seg ∈ data, seg ∈ segs) → CoveredBut segs ram →
    CoveredBut segs (getIdSegments data moved ram).2
  | [], _, _, _, h => h
  | seg :: rest, moved, ram, hdata, h => by
    obtain ⟨hmem, hrest⟩ := forall_mem_cons.mp hdata
    simp only [getIdSegments]
    split
    · exact h
    next hwritable =>
    rw [Bool.not_eq_false] at hwritable
    split
    · exact h
    split
    · exact h
    · have hlen := length_take_le (min seg.len deviceIdText.length) deviceIdText
      exact getIdSegments_but hrest ((h.store hmem hwritable (Nat.le_refl _) (by simp)).store hmem
        hwritable (Nat.le_refl _) (by omega))

section Requests

variable {blk : Blk Id} {header status : Queue.Segment} {data : List Queue.Segment} {sector : ℕ}
  (hdata : ∀ seg ∈ data, seg ∈ segs) (hmem : status ∈ segs) (hwritable : status.writable = true)
  (hlen : status.len ≥ 1) (h : CoveredBut segs ram)

include hdata hmem hwritable hlen h

lemma handleIn_but : CoveredBut segs (handleIn hash blk sector data status ram).2.2 := by
  unfold handleIn
  split
  · exact failStatus_but hmem h
  cases hvalid : validateData true (blk.capacitySectors * sectorSize) data (sector * sectorSize)
      0 with
  | none => exact failStatus_but hmem h
  | some result =>
    have hall := (validateData_ok hvalid).1
    simp only
    split
    · exact failStatus_but hmem h
    next b _ =>
    have hread : CoveredBut segs (readSegments hash data (sector * sectorSize) b ram).2.2 :=
      readSegments_but (fun seg hseg => ⟨hdata seg hseg, hall seg hseg⟩) h
    split
    · next hrun =>
      rw [hrun] at hread
      exact okStatus_but hmem hwritable hlen _ hread
    · next hrun =>
      rw [hrun] at hread
      exact failStatus_but hmem hread

omit hdata in
lemma handleOut_but : CoveredBut segs (handleOut hash blk sector data status ram).2.2 := by
  unfold handleOut
  repeat' split
  all_goals first | exact failStatus_but hmem h | exact okStatus_but hmem hwritable hlen _ h

omit hdata in
lemma zeroSectors_but {rangeSector numSectors flags : ℕ} :
    CoveredBut segs (zeroSectors hash blk rangeSector numSectors flags status ram).2.2 := by
  unfold zeroSectors
  repeat' split
  all_goals first
    | exact failStatus_but hmem h
    | exact unsupportedStatus_but hmem h
    | exact status_but hmem hwritable hlen _ h

omit hdata in
lemma handleWriteZeroes_but :
    CoveredBut segs (handleWriteZeroes hash blk header data status ram).2.2 := by
  unfold handleWriteZeroes
  split
  · exact unsupportedStatus_but hmem h
  split
  case h_2 => exact failStatus_but hmem h
  iterate 3
    split
    · exact failStatus_but hmem h
  · exact zeroSectors_but hmem hwritable hlen h

omit [DecidableEq Id] in
lemma handleGetId_but : CoveredBut segs (handleGetId blk data status ram).2.2 := by
  have hstored : CoveredBut segs (getIdSegments data 0 ram).2 := getIdSegments_but hdata h
  unfold handleGetId
  split
  · next hrun =>
    rw [hrun] at hstored
    exact failStatus_but hmem hstored
  · next hrun =>
    rw [hrun] at hstored
    exact okStatus_but hmem hwritable hlen _ hstored

lemma dispatch_but : CoveredBut segs (dispatch hash blk header data status ram).2.2 := by
  unfold dispatch
  split
  · exact handleIn_but hdata hmem hwritable hlen h
  split
  · exact handleOut_but hmem hwritable hlen h
  split
  · unfold handleFlush
    split
    · exact failStatus_but hmem h
    · exact status_but hmem hwritable hlen _ h
  split
  · exact handleGetId_but hdata hmem hwritable hlen h
  split
  · exact handleWriteZeroes_but hmem hwritable hlen h
  · exact status_but hmem hwritable hlen _ h

end Requests

lemma handler_within : Within (handler hash : Queue.Handler (Blk Id)) := by
  intro chain blk ram h
  change CoveredBut chain.segments (handleRequest hash chain.segments blk ram).2.2
  match hsegs : chain.segments, h with
  | [], h => exact h
  | [_], h => exact h
  | header :: second :: rest, h =>
    obtain ⟨data, status, hsplit⟩ :=
      (eq_nil_or_concat (second :: rest)).resolve_left (cons_ne_nil _ _)
    rw [hsplit, concat_eq_append] at h ⊢
    rw [handleRequest_framed]
    have hmem : status ∈ header :: (data ++ [status]) := by simp
    split
    · exact failStatus_but hmem h
    split
    · exact h
    · next hstatus =>
      rw [not_or, Bool.not_eq_false, Nat.not_lt] at hstatus
      exact dispatch_but (fun seg hseg => by simp [hseg]) hmem hstatus.1 hstatus.2 h

end Blk

-- ══ The other handlers

lemma Rng.fillSegments_but {segs : List Queue.Segment} : ∀ {some : List Queue.Segment}
    {written : ℕ} {rng : Rng} {ram : GuestRam}, (∀ seg ∈ some, seg ∈ segs) → CoveredBut segs ram →
    CoveredBut segs (fillSegments some written rng ram).2.2
  | [], _, _, _, _, h => h
  | seg :: rest, written, rng, ram, hsome, h => by
    obtain ⟨hmem, hrest⟩ := forall_mem_cons.mp hsome
    simp only [fillSegments]
    split
    · exact fillSegments_but hrest h
    · next hwritable =>
      rw [Bool.not_eq_false] at hwritable
      exact fillSegments_but hrest (h.store hmem hwritable (Nat.le_refl _) (by simp))

lemma Rng.handleChain_within : Within Rng.handleChain :=
  fun _ _ _ h => fillSegments_but (fun _ hseg => hseg) h

lemma Mem.handleRequest_within : Within Mem.handleRequest := by
  intro chain mem ram h
  unfold Mem.handleRequest
  cases hfind : chain.segments.find? Queue.Segment.writable with
  | none => exact h
  | some response =>
    have hmem := List.mem_of_find?_eq_some hfind
    have hwritable : response.writable = true := by simpa using List.find?_some hfind
    simp only
    split
    · exact h
    next hlen =>
    split
    · exact h
    next request _ =>
    have hstate : ∀ value, CoveredBut chain.segments (storeState response value ram) := by
      rintro (_ | value)
      · exact h
      · exact h.store hmem hwritable (by omega) (by simp; omega)
    exact (hstate _).store hmem hwritable (Nat.le_refl _) (by simp; omega)

-- ══ Receive loops

namespace Net

variable {segs : List Queue.Segment}

lemma length_headerZeros (copied room : ℕ) :
    (headerZeros copied room).length = min room (netHeaderLen - copied) := by
  unfold headerZeros
  split
  · exact length_replicate
  · simp only [length_nil]
    omega

lemma length_framePart (frame : Bytes) {copied : ℕ} (room : ℕ) (h : netHeaderLen ≤ copied) :
    (framePart frame copied room).length = min room (netHeaderLen + frame.length - copied) := by
  rw [framePart, if_pos h, length_take, length_drop]
  omega

lemma length_framePart_le (frame : Bytes) (copied room : ℕ) :
    (framePart frame copied room).length ≤ room := by
  unfold framePart
  split
  · exact length_take_le _ _
  · exact Nat.zero_le _

lemma storeFrame_but {frame : Bytes} : ∀ {some : List Queue.Segment} {copied : ℕ}
    {ram : GuestRam}, (∀ seg ∈ some, seg ∈ segs) → CoveredBut segs ram →
    CoveredBut segs (storeFrame frame copied some ram).2
  | [], _, _, _, h => h
  | seg :: rest, copied, ram, hsome, h => by
    obtain ⟨hmem, hrest⟩ := forall_mem_cons.mp hsome
    simp only [storeFrame]
    split
    · exact storeFrame_but hrest h
    next hwritable =>
    have hzeros := (length_headerZeros copied seg.len).trans_le (Nat.min_le_left _ _)
    have hstored := h.store_two hmem (Bool.not_eq_false _ ▸ hwritable) hzeros
      (length_framePart_le frame (copied + (headerZeros copied seg.len).length) _)
    split
    · exact hstored
    · exact storeFrame_but hrest hstored

lemma storeFrame_some {frame : Bytes} : ∀ {segs : List Queue.Segment} {copied : ℕ}
    {ram : GuestRam}, copied < netHeaderLen + frame.length →
    netHeaderLen + frame.length ≤ copied + Queue.writableLen segs →
    (storeFrame frame copied segs ram).1 = some (netHeaderLen + frame.length)
  | [], copied, ram, hlt, hfit => by
    simp only [Queue.writableLen, filter_nil, map_nil, sum_nil] at hfit
    omega
  | seg :: rest, copied, ram, hlt, hfit => by
    simp only [storeFrame]
    split
    · next hread =>
      refine storeFrame_some hlt ?_
      rw [Queue.writableLen, filter_cons_of_neg (by simp [hread])] at hfit
      exact hfit
    next hwritable =>
    rw [Queue.writableLen, filter_cons_of_pos (by simpa using hwritable), map_cons,
      sum_cons] at hfit
    have hzeros := length_headerZeros copied seg.len
    generalize headerZeros copied seg.len = zeros at hzeros
    have hpart : (framePart frame (copied + zeros.length) (seg.len - zeros.length)).length =
        min (seg.len - zeros.length) (netHeaderLen + frame.length - (copied + zeros.length)) := by
      by_cases hheader : netHeaderLen ≤ copied + zeros.length
      · exact length_framePart frame _ hheader
      · rw [framePart, if_neg hheader, length_nil]
        omega
    split
    · rfl
    · next hmore =>
      refine storeFrame_some (by omega) ?_
      change _ ≤ _ + ((rest.filter Queue.Segment.writable).map Queue.Segment.len).sum
      omega

lemma modifyNet_covered (f : Net → Net) : Stays (fun m => Covered m.ram) (modifyNet f) :=
  Keeps.modify fun _ h => h

lemma drainTx_covered : ∀ (budget : ℕ) (didWork : Bool),
    Stays (fun m => Covered m.ram) (drainTx budget didWork)
  | 0, _ => Stays.pure
  | budget + 1, didWork => by
    refine (Queue.popAvail_covered txQueue).capture.bind fun popped _ => ?_
    match popped with
    | .error _ => exact Stays.pure
    | .ok none => exact Stays.pure
    | .ok (some chain) =>
      refine Keeps.get.bind fun m _ => (modifyNet_covered _).bind fun _ _ =>
        (Queue.pushUsed_covered txQueue chain.head 0).capture.bind fun pushed _ => ?_
      cases pushed with
      | error _ => exact Stays.pure
      | ok _ => exact drainTx_covered budget true

lemma storeFrameM_stores (chain : Queue.Chain) (frame : Bytes) :
    Triple (fun m => Covered m.ram) (storeFrameM chain frame)
      (fun written m => CoveredBut chain.segments m.ram ∧ (written = 0 → Covered m.ram))
      fun m => Covered m.ram := by
  intro m hm
  change CoveredBut chain.segments (writeRxFrameToChain chain frame m.ram).2 ∧
    ((writeRxFrameToChain chain frame m.ram).1.getD 0 = 0 →
      Covered (writeRxFrameToChain chain frame m.ram).2)
  unfold writeRxFrameToChain
  split
  · exact ⟨hm.but _, fun _ => hm⟩
  split
  · exact ⟨hm.but _, fun _ => hm⟩
  · next hgood hfit =>
    refine ⟨storeFrame_but (fun _ hseg => hseg) (hm.but _), fun hnone => ?_⟩
    rw [storeFrame_some (by simp only [netHeaderLen]; omega) (by omega), Option.getD_some] at hnone
    simp only [netHeaderLen] at hnone
    omega

lemma flushRx_covered : ∀ (budget : ℕ) (didWork : Bool),
    Stays (fun m => Covered m.ram) (flushRx budget didWork)
  | 0, _ => Stays.pure
  | budget + 1, didWork => by
    refine (modifyNet_covered peek).bind fun _ _ => Keeps.get.bind fun m _ => ?_
    cases m.device.rx with
    | nil => exact Stays.pure
    | cons frame _ =>
      refine (Queue.popAvail_covered rxQueue).capture.bind fun popped _ => ?_
      match popped with
      | .error _ => exact Stays.pure
      | .ok none => exact Stays.pure
      | .ok (some chain) =>
        refine Triple.bind (storeFrameM_stores chain frame) fun written =>
          Triple.bind (fun m hm => ?_) fun _ =>
            (Queue.pushUsed_covered rxQueue chain.head written).capture.bind fun pushed _ => ?_
        · unfold Lib.EState.runIf
          by_cases hwritten : written > 0
          · rw [if_pos hwritten]
            exact Queue.markSegments_covered hm.1
          · rw [if_neg hwritten]
            exact hm.2 (Nat.eq_zero_of_not_pos hwritten)
        · cases pushed with
          | error _ => exact Stays.pure
          | ok _ =>
            exact (Keeps.runIf fun _ => modifyNet_covered _).bind fun _ _ =>
              flushRx_covered budget true

lemma notify_covered (qi : ℕ) : Stays (fun m => Covered m.ram) (notify qi) := by
  unfold notify
  split
  · exact (drainTx_covered _ _).bind fun _ _ => (flushRx_covered _ _).bind fun _ _ =>
      Stays.pure
  split
  · exact flushRx_covered _ _
  · exact Stays.pure

end Net

namespace VsockRam

lemma length_headerPart_le (buf : Bytes) (copied room : ℕ) :
    (headerPart buf copied room).length ≤ room := by
  unfold headerPart
  split
  · exact (length_take_le _ _).trans (Nat.min_le_left _ _)
  · exact Nat.zero_le _

lemma length_payloadPart_le (payload : Bytes) (copied room : ℕ) :
    (payloadPart payload copied room).length ≤ room := by
  unfold payloadPart
  split
  · exact length_take_le _ _
  · exact Nat.zero_le _

lemma storePacket_but {segs : List Queue.Segment} {buf payload : Bytes} :
    ∀ {some : List Queue.Segment} {copied : ℕ} {ram : GuestRam}, (∀ seg ∈ some, seg ∈ segs) →
      CoveredBut segs ram → CoveredBut segs (storePacket buf payload copied some ram).2
  | [], _, _, _, h => h
  | seg :: rest, copied, ram, hsome, h => by
    obtain ⟨hmem, hrest⟩ := forall_mem_cons.mp hsome
    simp only [storePacket]
    split
    · exact storePacket_but hrest h
    next hwritable =>
    have hstored := h.store_two hmem (Bool.not_eq_false _ ▸ hwritable)
      (length_headerPart_le buf copied seg.len)
      (length_payloadPart_le payload (copied + (headerPart buf copied seg.len).length) _)
    split
    · exact hstored
    · exact storePacket_but hrest hstored

lemma fill_but (chain : Queue.Chain) (packet : Packet) {ram : GuestRam}
    (h : CoveredBut chain.segments ram) : CoveredBut chain.segments (fill chain packet ram).2 := by
  unfold fill
  split
  · exact h
  · exact storePacket_but (fun _ hseg => hseg) h

lemma storePacketM_but (chain : Queue.Chain) (packet : Packet) :
    Triple (fun m => Covered m.ram) (storePacketM chain packet)
      (fun _ m => CoveredBut chain.segments m.ram) fun m => Covered m.ram :=
  fun _ hm => fill_but chain packet (hm.but _)

lemma modifyVsock_covered (f : Vsock → Vsock) : Stays (fun m => Covered m.ram) (modifyVsock f) :=
  Keeps.modify fun _ h => h

lemma flushRx_covered : ∀ (budget : ℕ) (didWork : Bool),
    Stays (fun m => Covered m.ram) (flushRx budget didWork)
  | 0, _ => Stays.pure
  | budget + 1, didWork => by
    refine Keeps.get.bind fun m _ => ?_
    cases m.device.pending with
    | nil => exact Stays.pure
    | cons packet rest =>
      refine (Queue.popAvail_covered rxQueue).capture.bind fun popped _ => ?_
      match popped with
      | .error _ => exact Stays.pure
      | .ok none => exact Stays.pure
      | .ok (some chain) =>
        refine Keeps.get.bind fun m _ => Triple.bind (storePacketM_but chain packet) fun written =>
          Triple.bind (Q := fun _ (m : Machine Vsock) => Covered m.ram)
            (fun m hm => Queue.markSegments_covered hm) fun _ =>
              (Queue.pushUsed_covered rxQueue chain.head written).capture.bind fun pushed _ => ?_
        cases pushed with
        | error _ => exact Stays.pure
        | ok _ => exact (modifyVsock_covered _).bind fun _ _ => flushRx_covered budget true

lemma processChains_covered (before : ℕ → List HostStream.Enqueue)
    (between : ℕ → Attached.Between) : ∀ (budget : ℕ) (didWork : Bool),
    Stays (fun m => Covered m.ram) (processChains before between budget didWork)
  | 0, _ => Stays.pure
  | budget + 1, didWork => by
    refine (modifyVsock_covered _).bind fun _ _ =>
      (Queue.popAvail_covered txQueue).capture.bind fun popped _ => ?_
    match popped with
    | .error _ => exact Stays.pure
    | .ok none => exact Stays.pure
    | .ok (some chain) =>
      refine Keeps.get.bind fun m _ => (modifyVsock_covered _).bind fun _ _ =>
        (Queue.pushUsed_covered txQueue chain.head 0).capture.bind fun pushed _ => ?_
      cases pushed with
      | error _ => exact Stays.pure
      | ok _ => exact processChains_covered before between budget true

lemma notify_covered (before : ℕ → List HostStream.Enqueue) (between : ℕ → Attached.Between)
    (qi : ℕ) : Stays (fun m => Covered m.ram) (notify before between qi) := by
  unfold notify
  split
  · refine (processChains_covered before between _ _).bind fun result _ => ?_
    obtain ⟨didWork, budget⟩ := result
    cases budget with
    | none => exact Stays.pure
    | some budget =>
      exact (modifyVsock_covered _).bind fun _ _ => (flushRx_covered _ _).bind fun _ _ =>
        Stays.pure
  split
  · exact flushRx_covered _ _
  · exact Stays.pure

end VsockRam

-- ══ All devices

lemma Blk.notify_covered {Id : Type} [DecidableEq Id] (hash : List UInt8 → Id) (qi : ℕ) :
    Stays (fun m => Covered m.ram) (Blk.notify hash qi) := by
  refine Keeps.get.bind fun m _ => ?_
  split
  · exact Stays.pure
  cases m.device.worker with
  | none => exact Queue.serve_covered 0 Blk.handler_within _ _
  | some kicks =>
    intro m' hm'
    exact ⟨‹_›, trivial⟩

def ramAfter {D α : Type} (call : DeviceM D α) (m : Machine D) : GuestRam :=
  (outcome call { m with ram := m.ram.fresh }).2.ram

lemma ramAfter_covered {D α : Type} {call : DeviceM D α}
    (h : Stays (fun m => Covered m.ram) call) (m : Machine D) : Covered (ramAfter call m) :=
  Keeps.outcome h (Queue.covered_fresh m.ram)

/-- **Marking.** Whatever is in guest memory, in the queues and in the devices, at the end of a
notification or a flush every byte that the device has stored during the call lies in a range that
was marked during the call. -/
theorem device_stores_are_marked {Id : Type} [DecidableEq Id] (hash : List UInt8 → Id) :
    (∀ (m : Machine (Blk.Blk Id)) qi, Covered (ramAfter (Blk.notify hash qi) m)) ∧
      (∀ (m : Machine Rng) qi, Covered (ramAfter (Rng.notify qi) m)) ∧
      (∀ (m : Machine Mem) qi, Covered (ramAfter (Mem.notify qi) m)) ∧
      (∀ (m : Machine Net) qi, Covered (ramAfter (Net.notify qi) m)) ∧
      (∀ m : Machine Net, Covered (ramAfter (Net.flushRx Queue.maxNotifyChains false) m)) ∧
      (∀ (m : Machine Vsock) before between qi,
        Covered (ramAfter (VsockRam.notify before between qi) m)) ∧
      ∀ m : Machine Vsock, Covered (ramAfter (VsockRam.flushRx Queue.maxNotifyChains false) m) := by
  refine ⟨fun m qi => ramAfter_covered (Blk.notify_covered hash qi) m, fun m qi => ?_,
    fun m qi => ?_, fun m qi => ramAfter_covered (Net.notify_covered qi) m,
    fun m => ramAfter_covered (Net.flushRx_covered _ _) m,
    fun m before between qi => ramAfter_covered (VsockRam.notify_covered before between qi) m,
    fun m => ramAfter_covered (VsockRam.flushRx_covered _ _) m⟩
  · refine ramAfter_covered ?_ m
    unfold Rng.notify
    split
    · exact Keeps.pure trivial
    · exact Queue.serve_covered 0 Rng.handleChain_within _ _
  · refine ramAfter_covered ?_ m
    unfold Mem.notify
    split
    · exact Keeps.pure trivial
    · exact Queue.serve_covered 0 Mem.handleRequest_within _ _

end SporeVM.Virtio
