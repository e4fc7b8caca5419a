import SporeVM.Preload

/-!
# Chunks sealed while an image is written

`InlineRootfsCas` of `rootfs/ext4_writer.zig` cuts an image into chunks while it is written, from
pieces of data and runs of zeros that come in ascending order. Chunks that are not zero are hashed
by workers, which take them from a queue and finish in any order. What comes out is the index that
a scan of the finished image gives.

A failure of a worker ends the emission with an error. Statistics, timings and the objects of the
chunks are left out.
-/

namespace SporeVM.InlineCas

open Lib (SparseFile divCeil)
open Lib.Check (rejectIf)
open Preload (SourceFile manifestIndex fileIndex)
open List hiding not_lt
open Function

variable {Id : Type}

def blockSize : ℕ := 4096

-- ══ The writer's side

structure SealTask where
  logicalChunk : ℕ
  data : List UInt8
  deriving DecidableEq

structure InlineRootfsCas where
  chunkSize : ℕ
  imageSize : ℕ
  /-- The part of the buffer that is filled. -/
  chunkBuf : List UInt8 := []
  logicalChunk : ℕ := 0
  zeroRanges : List DiskIndexZeroRange := []
  chunkCount : ℕ := 0
  nonzeroChunks : ℕ := 0
  /-- What has been put into the queue, in order. -/
  tasks : List SealTask := []
  room : chunkBuf.length < chunkSize

namespace InlineRootfsCas

def init (imageSize chunkSize : ℕ) : Except StorageError InlineRootfsCas :=
  if h : 0 < chunkSize ∧ chunkSize % blockSize = 0 ∧ divCeil imageSize chunkSize ≤ maxU64 then
    .ok { chunkSize, imageSize, chunkBuf := [], room := h.1 }
  else .error .badManifest

def appendZeroChunk (self : InlineRootfsCas) : InlineRootfsCas :=
  { self with
    zeroRanges := SporeVM.appendZeroChunk self.zeroRanges self.logicalChunk
    logicalChunk := self.logicalChunk + 1
    chunkCount := self.chunkCount + 1
    chunkBuf := []
    room := Nat.zero_lt_of_lt self.room }

def enqueueDataChunk (self : InlineRootfsCas) (bytes : List UInt8) : InlineRootfsCas :=
  { self with
    tasks := self.tasks ++ [⟨self.logicalChunk, bytes⟩]
    logicalChunk := self.logicalChunk + 1
    chunkCount := self.chunkCount + 1
    nonzeroChunks := self.nonzeroChunks + 1
    chunkBuf := []
    room := Nat.zero_lt_of_lt self.room }

def flushChunk (self : InlineRootfsCas) (bytes : List UInt8) : InlineRootfsCas :=
  if bytes.all (· == 0) = true then self.appendZeroChunk else self.enqueueDataChunk bytes

def fill (self : InlineRootfsCas) (bytes : List UInt8)
    (h : self.chunkBuf.length + bytes.length ≤ self.chunkSize) : InlineRootfsCas :=
  if hfull : self.chunkBuf.length + bytes.length = self.chunkSize then
    self.flushChunk (self.chunkBuf ++ bytes)
  else { self with chunkBuf := self.chunkBuf ++ bytes, room := by rw [length_append]; omega }

def writeBytes (self : InlineRootfsCas) (bytes : List UInt8) : InlineRootfsCas :=
  if h : bytes = [] then self
  else
    let take := min bytes.length (self.chunkSize - self.chunkBuf.length)
    writeBytes
      (self.fill (bytes.take take) (by have := self.room; simp only [length_take]; omega))
      (bytes.drop take)
termination_by bytes.length
decreasing_by
  have := self.room
  have := length_pos_of_ne_nil h
  simp only [length_drop]
  omega

def appendZeroChunks (self : InlineRootfsCas) (remaining : ℕ) : InlineRootfsCas × ℕ :=
  if self.chunkSize ≤ remaining then
    appendZeroChunks self.appendZeroChunk (remaining - self.chunkSize)
  else (self, remaining)
termination_by remaining
decreasing_by
  have := self.room
  omega

lemma appendZeroChunks_lt (self : InlineRootfsCas) (remaining : ℕ) :
    (self.appendZeroChunks remaining).2 < (self.appendZeroChunks remaining).1.chunkSize := by
  fun_induction appendZeroChunks with
  | case1 self remaining _ ih => exact ih
  | case2 self remaining hlt => exact Nat.not_le.mp hlt

def startZeros (self : InlineRootfsCas) (byteLen : ℕ) : InlineRootfsCas × ℕ :=
  if self.chunkBuf = [] then (self, byteLen)
  else
    let take := min byteLen (self.chunkSize - self.chunkBuf.length)
    (self.fill (replicate take 0)
      (by have := self.room; simp only [length_replicate]; omega), byteLen - take)

def writeZeroBytes (self : InlineRootfsCas) (byteLen : ℕ) : InlineRootfsCas :=
  let started := self.startZeros byteLen
  let whole := started.1.appendZeroChunks started.2
  if 0 < whole.2 then
    { whole.1 with
      chunkBuf := replicate whole.2 0
      room := by
        rw [length_replicate]
        exact appendZeroChunks_lt started.1 started.2 }
  else whole.1

def close (self : InlineRootfsCas) : InlineRootfsCas :=
  if self.chunkBuf = [] then self else self.flushChunk self.chunkBuf

section Finish

variable (hash : List UInt8 → Id) (stringify : DiskIndex Id → List UInt8)

def sealedManifestChunks (results : ℕ → Option Id) (count : ℕ) : List (DiskIndexChunk Id) :=
  (range count).filterMap fun c => (results c).map fun id => ⟨c, id⟩

def index (self : InlineRootfsCas) (results : ℕ → Option Id) : DiskIndex Id :=
  manifestIndex self.imageSize self.chunkSize
    ⟨sealedManifestChunks results (divCeil self.imageSize self.chunkSize), self.zeroRanges⟩

/-- The end of an emission, once the buffer is flushed and the workers are done: the digest of the
index, and the index. -/
def finish (self : InlineRootfsCas) (results : ℕ → Option Id) :
    Except StorageError (Id × DiskIndex Id) := do
  let expected := divCeil self.imageSize self.chunkSize
  rejectIf (self.logicalChunk ≠ expected ∨ self.chunkCount ≠ expected) .badManifest
  rejectIf ((sealedManifestChunks results expected).length ≠ self.nonzeroChunks) .badManifest
  let digest ← encodeCanonical hash stringify (self.index results)
  pure (digest, self.index results)

end Finish

end InlineRootfsCas

-- ══ The workers' side

/-- What the writer and its workers share: what the writer is still to queue, the queue, what
workers have taken, and what they have found. -/
structure Pool (Id : Type) where
  waiting : List SealTask
  queue : List SealTask := []
  busy : List SealTask := []
  results : ℕ → Option Id := fun _ => none
  failed : Bool := false

inductive Pool.Step (hash : List UInt8 → Id) (capacity workers : ℕ) : Pool Id → Pool Id → Prop
  | enqueue {pool : Pool Id} {task : SealTask} {rest : List SealTask}
      (hwaiting : pool.waiting = task :: rest) (hroom : pool.queue.length < capacity)
      (hfailed : pool.failed = false) :
      Step hash capacity workers pool
        { pool with waiting := rest, queue := pool.queue ++ [task] }
  | take {pool : Pool Id} {task : SealTask} {rest : List SealTask}
      (hqueue : pool.queue = task :: rest) (hidle : pool.busy.length < workers)
      (hfailed : pool.failed = false) :
      Step hash capacity workers pool { pool with queue := rest, busy := task :: pool.busy }
  | complete {pool : Pool Id} {task : SealTask} {front back : List SealTask} {id : Id}
      (hbusy : pool.busy = front ++ task :: back) (hseal : sealBytes hash task.data = .data id) :
      Step hash capacity workers pool
        { pool with
          busy := front ++ back
          results := update pool.results task.logicalChunk (some id) }
  | fail {pool : Pool Id} {task : SealTask} {front back : List SealTask}
      (hbusy : pool.busy = front ++ task :: back) :
      Step hash capacity workers pool { pool with busy := front ++ back, failed := true }

structure Pool.Joined (pool : Pool Id) : Prop where
  waiting : pool.waiting = []
  queue : pool.queue = []
  busy : pool.busy = []
  failed : pool.failed = false

section Workers

variable {hash : List UInt8 → Id} {capacity workers : ℕ} {tasks : List SealTask}
  {pool pool' : Pool Id}

structure Pool.Inv (hash : List UInt8 → Id) (tasks : List SealTask) (pool : Pool Id) : Prop where
  known : ∀ task, task ∈ pool.waiting ∨ task ∈ pool.queue ∨ task ∈ pool.busy → task ∈ tasks
  found : ∀ c id, pool.results c = some id →
    ∃ task ∈ tasks, task.logicalChunk = c ∧ sealBytes hash task.data = .data id
  left : pool.failed = false → ∀ task ∈ tasks,
    task ∈ pool.waiting ∨ task ∈ pool.queue ∨ task ∈ pool.busy ∨
      ∃ id, pool.results task.logicalChunk = some id ∧ sealBytes hash task.data = .data id

variable (hdistinct : ∀ t ∈ tasks, ∀ t' ∈ tasks, t.logicalChunk = t'.logicalChunk → t = t')

include hdistinct

lemma Pool.Inv.step (h : pool.Inv hash tasks) (hstep : Pool.Step hash capacity workers pool pool') :
    pool'.Inv hash tasks := by
  cases hstep with
  | enqueue hwaiting _ hfailed =>
    refine ⟨fun t ht => h.known t ?_, h.found, fun hf t ht => ?_⟩
    · grind
    · have := h.left hf t ht
      grind
  | take hqueue _ hfailed =>
    refine ⟨fun t ht => h.known t ?_, h.found, fun hf t ht => ?_⟩
    · grind
    · have := h.left hf t ht
      grind
  | @complete task front back id hbusy hseal =>
    have htask : task ∈ tasks := h.known task (.inr (.inr (by simp [hbusy])))
    refine ⟨fun t ht => h.known t ?_, fun c id' hc => ?_, fun hf t ht => ?_⟩
    · grind
    · dsimp only at hc
      by_cases hsame : c = task.logicalChunk
      · subst hsame
        rw [update_self] at hc
        cases hc
        exact ⟨task, htask, rfl, hseal⟩
      · rw [update_of_ne hsame] at hc
        exact h.found c id' hc
    · -- the digest that was there under this number is the one of the same task
      by_cases hsame : t.logicalChunk = task.logicalChunk
      · obtain rfl := hdistinct t ht task htask hsame
        exact .inr (.inr (.inr ⟨id, update_self .., hseal⟩))
      · rcases h.left hf t ht with hw | hq | hb | ⟨id', hid', hseal'⟩
        · exact .inl hw
        · exact .inr (.inl hq)
        · grind
        · exact .inr (.inr (.inr ⟨id', (update_of_ne hsame ..).trans hid', hseal'⟩))
  | fail hbusy =>
    refine ⟨fun t ht => h.known t ?_, h.found, nofun⟩
    grind

/-- What the workers have found when they are done does not depend on their order. -/
theorem results_of_joined
    (hrun : Relation.ReflTransGen (Pool.Step hash capacity workers) { waiting := tasks } pool)
    (hjoined : pool.Joined) {c : ℕ} {id : Id} :
    pool.results c = some id ↔
      ∃ task ∈ tasks, task.logicalChunk = c ∧ sealBytes hash task.data = .data id := by
  have hinv : pool.Inv hash tasks := by
    clear hjoined
    induction hrun with
    | refl => exact ⟨by simp, by simp, fun _ t ht => .inl ht⟩
    | tail _ hstep ih => exact ih.step hdistinct hstep
  refine ⟨hinv.found c id, ?_⟩
  rintro ⟨task, htask, rfl, hseal⟩
  rcases hinv.left hjoined.failed task htask with hw | hq | hb | ⟨id', hid', hseal'⟩
  · simp [hjoined.waiting] at hw
  · simp [hjoined.queue] at hq
  · simp [hjoined.busy] at hb
  · rw [hid']
    rw [hseal] at hseal'
    cases hseal'
    rfl

end Workers

-- ══ The chunks of the bytes so far

def chunkOf (cs : ℕ) (bytes : List UInt8) (c : ℕ) : List UInt8 := (bytes.drop (c * cs)).take cs

def taskOf (cs : ℕ) (bytes : List UInt8) (c : ℕ) : Option SealTask :=
  if (chunkOf cs bytes c).all (· == 0) = true then none else some ⟨c, chunkOf cs bytes c⟩

lemma chunkOf_append {cs c n : ℕ} {bytes more : List UInt8} (hc : c < n)
    (hn : n * cs ≤ bytes.length) : chunkOf cs (bytes ++ more) c = chunkOf cs bytes c := by
  have hend : c * cs + cs ≤ bytes.length := by
    rw [← Nat.succ_mul]
    exact (Nat.mul_le_mul_right cs hc).trans hn
  rw [chunkOf, chunkOf, drop_append_of_le_length (by omega),
    take_append_of_le_length (by rw [length_drop]; omega)]

section Feeding

variable (hash : List UInt8 → Id) (cs size : ℕ)

structure Recorded (bytes : List UInt8) (n : ℕ) (cas : InlineRootfsCas) : Prop where
  chunkSize : cas.chunkSize = cs
  imageSize : cas.imageSize = size
  logicalChunk : cas.logicalChunk = n
  chunkCount : cas.chunkCount = n
  zeroRanges : cas.zeroRanges =
    (draftOf (fun c => sealBytes hash (chunkOf cas.chunkSize bytes c)) n).zeroRanges
  tasks : cas.tasks = (range n).filterMap (taskOf cas.chunkSize bytes)
  nonzeroChunks : cas.nonzeroChunks = cas.tasks.length

/-- The writer has been fed this text: its whole chunks are recorded, the rest is in the buffer. -/
structure Fed (bytes : List UInt8) (cas : InlineRootfsCas) : Prop where
  recorded : Recorded hash cs size bytes cas.logicalChunk cas
  inside : cas.logicalChunk * cas.chunkSize ≤ bytes.length
  chunkBuf : cas.chunkBuf = bytes.drop (cas.logicalChunk * cas.chunkSize)

variable {hash cs size} {bytes more : List UInt8} {n : ℕ} {cas : InlineRootfsCas}

lemma Recorded.append (h : Recorded hash cs size bytes n cas)
    (hn : n * cas.chunkSize ≤ bytes.length) (more : List UInt8) :
    Recorded hash cs size (bytes ++ more) n cas := by
  refine ⟨h.chunkSize, h.imageSize, h.logicalChunk, h.chunkCount, ?_, ?_, h.nonzeroChunks⟩
  · rw [h.zeroRanges]
    refine congrArg Draft.zeroRanges (draftOf_congr fun c hc => ?_)
    rw [chunkOf_append hc hn]
  · rw [h.tasks]
    refine filterMap_congr fun c hc => ?_
    rw [taskOf, taskOf, chunkOf_append (mem_range.mp hc) hn]

lemma Recorded.flush (h : Recorded hash cs size bytes n cas) :
    Recorded hash cs size bytes (n + 1) (cas.flushChunk (chunkOf cas.chunkSize bytes n)) := by
  unfold InlineRootfsCas.flushChunk
  split
  · next hzero =>
    have htask : taskOf cas.chunkSize bytes n = none := if_pos hzero
    refine ⟨h.chunkSize, h.imageSize, congrArg (· + 1) h.logicalChunk,
      congrArg (· + 1) h.chunkCount, ?_, ?_, h.nonzeroChunks⟩
    · change appendZeroChunk cas.zeroRanges cas.logicalChunk =
        (draftOf (fun c => sealBytes hash (chunkOf cas.chunkSize bytes c)) (n + 1)).zeroRanges
      rw [h.zeroRanges, h.logicalChunk, draftOf, sealBytes, if_pos hzero]
      rfl
    · change cas.tasks = _
      rw [h.tasks, range_succ, filterMap_append]
      simp [InlineRootfsCas.appendZeroChunk, htask]
  · next hdata =>
    have htask : taskOf cas.chunkSize bytes n = some ⟨n, chunkOf cas.chunkSize bytes n⟩ :=
      if_neg hdata
    refine ⟨h.chunkSize, h.imageSize, congrArg (· + 1) h.logicalChunk,
      congrArg (· + 1) h.chunkCount, ?_, ?_, ?_⟩
    · change cas.zeroRanges =
        (draftOf (fun c => sealBytes hash (chunkOf cas.chunkSize bytes c)) (n + 1)).zeroRanges
      rw [h.zeroRanges, draftOf, sealBytes, if_neg hdata]
      rfl
    · change cas.tasks ++ [⟨cas.logicalChunk, _⟩] = _
      rw [h.tasks, h.logicalChunk, range_succ, filterMap_append]
      simp [InlineRootfsCas.enqueueDataChunk, htask]
    · change cas.nonzeroChunks + 1 = (cas.tasks ++ [_]).length
      rw [h.nonzeroChunks, length_append, length_singleton]

lemma flushChunk_chunkBuf (cas : InlineRootfsCas) (bytes : List UInt8) :
    (cas.flushChunk bytes).chunkBuf = [] := by
  unfold InlineRootfsCas.flushChunk
  split <;> rfl

variable (h : Fed hash cs size bytes cas)

include h

lemma Fed.fill (hroom : cas.chunkBuf.length + more.length ≤ cas.chunkSize) :
    Fed hash cs size (bytes ++ more) (cas.fill more hroom) := by
  have hbuf : (bytes ++ more).drop (cas.logicalChunk * cas.chunkSize) = cas.chunkBuf ++ more := by
    rw [drop_append_of_le_length h.inside, ← h.chunkBuf]
  have hlength : (bytes ++ more).length =
      cas.logicalChunk * cas.chunkSize + (cas.chunkBuf.length + more.length) := by
    have hlen := congrArg length h.chunkBuf
    have hin := h.inside
    rw [length_drop] at hlen
    rw [length_append]
    omega
  have hrecorded := h.recorded.append h.inside more
  unfold InlineRootfsCas.fill
  split
  · next hfull =>
    have hchunk : chunkOf cas.chunkSize (bytes ++ more) cas.logicalChunk =
        cas.chunkBuf ++ more := by
      rw [chunkOf, hbuf, take_of_length_le (by rw [length_append]; omega)]
    have hnext := hchunk ▸ hrecorded.flush
    have hempty := flushChunk_chunkBuf cas (cas.chunkBuf ++ more)
    have hsize := hnext.chunkSize.trans h.recorded.chunkSize.symm
    have hall : (cas.flushChunk (cas.chunkBuf ++ more)).logicalChunk * cas.chunkSize =
        (bytes ++ more).length := by
      rw [hnext.logicalChunk, Nat.succ_mul, hlength, hfull]
    refine ⟨hnext.logicalChunk ▸ hnext, ?_, ?_⟩
    · rw [hsize, hall]
    · rw [hempty, hsize, hall, drop_length]
  · obtain ⟨hcs, hsize, hlogical, hcount, hzero, htasks, hnonzero⟩ := hrecorded
    exact ⟨⟨hcs, hsize, hlogical, hcount, hzero, htasks, hnonzero⟩,
      by rw [hlength]; exact Nat.le_add_right _ _, hbuf.symm⟩

lemma Fed.writeBytes (more : List UInt8) :
    Fed hash cs size (bytes ++ more) (cas.writeBytes more) := by
  induction hlen : more.length using Nat.strongRecOn generalizing more bytes cas with
  | ind len ih =>
    rw [InlineRootfsCas.writeBytes]
    split
    · next hnil => rwa [hnil, append_nil]
    · next hne =>
      have hroom := cas.room
      have hpos := length_pos_of_ne_nil hne
      generalize_proofs hfit
      have hstep := ih _ ?_ (h.fill hfit) (more.drop
        (min more.length (cas.chunkSize - cas.chunkBuf.length))) rfl
      · rwa [append_assoc, take_append_drop] at hstep
      · rw [length_drop]
        omega

lemma Fed.appendZeroChunk (hempty : cas.chunkBuf = []) :
    Fed hash cs size (bytes ++ replicate cas.chunkSize 0) cas.appendZeroChunk := by
  have hroom : cas.chunkBuf.length + (replicate cas.chunkSize (0 : UInt8)).length =
      cas.chunkSize := by
    rw [hempty, length_replicate, length_nil, Nat.zero_add]
  have hfill := h.fill hroom.le
  rwa [InlineRootfsCas.fill, dif_pos hroom, InlineRootfsCas.flushChunk, if_pos] at hfill
  simp [hempty]

lemma Fed.appendZeroChunks (hempty : cas.chunkBuf = []) (k : ℕ) :
    ∃ m, m + (cas.appendZeroChunks k).2 = k ∧ (cas.appendZeroChunks k).1.chunkBuf = [] ∧
      Fed hash cs size (bytes ++ replicate m 0) (cas.appendZeroChunks k).1 := by
  fun_induction InlineRootfsCas.appendZeroChunks generalizing bytes with
  | case1 cas k hle ih =>
    obtain ⟨m, hm, hnil, hfed⟩ := ih (h.appendZeroChunk hempty) rfl
    refine ⟨cas.chunkSize + m, by omega, hnil, ?_⟩
    rwa [replicate_add, ← append_assoc]
  | case2 cas k hlt =>
    exact ⟨0, Nat.zero_add k, hempty, by rwa [replicate_zero, append_nil]⟩

lemma Fed.startZeros (k : ℕ) : ∃ m, m + (cas.startZeros k).2 = k ∧
      ((cas.startZeros k).1.chunkBuf = [] ∨ (cas.startZeros k).2 = 0) ∧
      Fed hash cs size (bytes ++ replicate m 0) (cas.startZeros k).1 := by
  unfold InlineRootfsCas.startZeros
  split
  · next hempty =>
    exact ⟨0, Nat.zero_add k, .inl hempty, by rwa [replicate_zero, append_nil]⟩
  · dsimp only
    generalize_proofs hfit
    refine ⟨_, by omega, ?_, h.fill hfit⟩
    by_cases hfull : cas.chunkBuf.length + (replicate (min k (cas.chunkSize -
        cas.chunkBuf.length)) (0 : UInt8)).length = cas.chunkSize
    · rw [InlineRootfsCas.fill, dif_pos hfull]
      exact .inl (flushChunk_chunkBuf _ _)
    · rw [length_replicate] at hfull
      exact .inr (by omega)

lemma Fed.writeZeroBytes (k : ℕ) :
    Fed hash cs size (bytes ++ replicate k 0) (cas.writeZeroBytes k) := by
  obtain ⟨m, hm, hstarted, hfed⟩ := h.startZeros k
  have hrest := (cas.startZeros k).1.appendZeroChunks_lt (cas.startZeros k).2
  rcases hstarted with hempty | hnone
  · obtain ⟨m', hm', hnil, hfed'⟩ := hfed.appendZeroChunks hempty (cas.startZeros k).2
    unfold InlineRootfsCas.writeZeroBytes
    dsimp only
    split
    · -- the zeros that are left start the buffer
      have hfit : ((cas.startZeros k).1.appendZeroChunks (cas.startZeros k).2).1.chunkBuf.length +
          (replicate ((cas.startZeros k).1.appendZeroChunks (cas.startZeros k).2).2
            (0 : UInt8)).length <
          ((cas.startZeros k).1.appendZeroChunks (cas.startZeros k).2).1.chunkSize := by
        rwa [hnil, length_replicate, length_nil, Nat.zero_add]
      have hfill := hfed'.fill hfit.le
      rw [InlineRootfsCas.fill, dif_neg hfit.ne, append_assoc, append_assoc,
        ← replicate_add, ← replicate_add, hm', hm] at hfill
      simpa only [hnil, nil_append] using hfill
    · next hzero =>
      rw [append_assoc, ← replicate_add] at hfed'
      rwa [show m + m' = k by omega] at hfed'
  · have hsame : (cas.startZeros k).1.appendZeroChunks (cas.startZeros k).2 =
        ((cas.startZeros k).1, 0) := by
      rw [hnone, InlineRootfsCas.appendZeroChunks, if_neg (Nat.not_le.mpr
        (Nat.zero_lt_of_lt (cas.startZeros k).1.room))]
    rw [hnone, Nat.add_zero] at hm
    unfold InlineRootfsCas.writeZeroBytes
    dsimp only
    split
    · next hpos => simp [hsame] at hpos
    · rw [hm] at hfed
      rwa [hsame]

lemma Fed.close : Recorded hash cs size bytes (divCeil bytes.length cs) cas.close := by
  have hcs := h.recorded.chunkSize
  have hroom := cas.room
  have hlen := congrArg length h.chunkBuf
  have hin := h.inside
  rw [length_drop] at hlen
  unfold InlineRootfsCas.close
  split
  · next hempty =>
    rw [hempty, length_nil] at hlen
    have hcount : divCeil bytes.length cas.chunkSize = cas.logicalChunk := by
      refine Lib.divCeil_eq (by omega) (by omega) fun c hc => ?_
      have hmul := Nat.mul_lt_mul_of_pos_right hc (show 0 < cas.chunkSize by omega)
      omega
    rw [← hcs, hcount]
    exact hcs ▸ h.recorded
  · next hne =>
    have hpos := length_pos_of_ne_nil hne
    have hcount : divCeil bytes.length cas.chunkSize = cas.logicalChunk + 1 := by
      refine Lib.divCeil_eq (by omega) (by rw [Nat.succ_mul]; omega) fun c hc => ?_
      have hmul := Nat.mul_le_mul_right cas.chunkSize (Nat.le_of_lt_succ hc)
      omega
    have hchunk : chunkOf cas.chunkSize bytes cas.logicalChunk = cas.chunkBuf := by
      rw [chunkOf, ← h.chunkBuf, take_of_length_le hroom.le]
    have hnext := hchunk ▸ h.recorded.flush
    rw [← hcs, hcount]
    exact hcs ▸ hnext

end Feeding

-- ══ Writing an image

structure EmitSpan where
  firstBlock : ℕ
  blockCount : ℕ
  batches : List (List UInt8)
  whole : batches.flatten.length = blockCount * blockSize

def spansOk (totalBlocks : ℕ) : ℕ → List EmitSpan → Bool
  | _, [] => true
  | previousEnd, span :: rest =>
    previousEnd ≤ span.firstBlock && span.firstBlock + span.blockCount ≤ totalBlocks &&
      spansOk totalBlocks (span.firstBlock + span.blockCount) rest

structure Emission where
  file : SparseFile
  cas : InlineRootfsCas

def emitZeroGap (out : Emission) (blockCount : ℕ) : Emission :=
  if blockCount = 0 then out
  else { out with cas := out.cas.writeZeroBytes (blockCount * blockSize) }

def writeBatches (out : Emission) (offset : ℕ) : List (List UInt8) → Emission
  | [] => out
  | batch :: rest =>
    writeBatches { file := out.file.pwrite offset batch, cas := out.cas.writeBytes batch }
      (offset + batch.length) rest

def writeSpans (totalBlocks : ℕ) (out : Emission) (cursor : ℕ) : List EmitSpan → Emission
  | [] => if cursor < totalBlocks then emitZeroGap out (totalBlocks - cursor) else out
  | span :: rest =>
    let out := if cursor < span.firstBlock then emitZeroGap out (span.firstBlock - cursor) else out
    writeSpans totalBlocks (writeBatches out (span.firstBlock * blockSize) span.batches)
      (span.firstBlock + span.blockCount) rest

def writeImage (imageSize totalBlocks : ℕ) (cas : InlineRootfsCas) (spans : List EmitSpan) :
    Emission :=
  writeSpans totalBlocks ⟨.zeros imageSize, cas⟩ 0 spans

section Image

variable {hash : List UInt8 → Id} {out : Emission} {bytes : List UInt8} {cs imageSize : ℕ}

structure Emitted (hash : List UInt8 → Id) (cs imageSize : ℕ) (bytes : List UInt8)
    (out : Emission) : Prop where
  fed : Fed hash cs imageSize bytes out.cas
  size : out.file.size = imageSize
  byte : ∀ i, out.file.byte i = bytes.getD i 0

variable (h : Emitted hash cs imageSize bytes out)

include h

lemma Emitted.zeroGap (n : ℕ) :
    Emitted hash cs imageSize (bytes ++ replicate (n * blockSize) 0) (emitZeroGap out n) := by
  unfold emitZeroGap
  split
  · next hzero => rwa [hzero, Nat.zero_mul, replicate_zero, append_nil]
  · refine ⟨h.fed.writeZeroBytes _, h.size, fun i => ?_⟩
    rw [h.byte]
    by_cases hi : i < bytes.length
    · rw [getD_append _ _ _ _ hi]
    · rw [getD_append_right _ _ _ _ (not_lt.mp hi), getD_eq_default _ _ (not_lt.mp hi)]
      exact (List.getElem?_getD_replicate_default_eq _ _ _).symm

lemma Emitted.batches {offset : ℕ} (hoffset : bytes.length = offset) (batches : List (List UInt8))
    (hinside : offset + batches.flatten.length ≤ imageSize) :
    Emitted hash cs imageSize (bytes ++ batches.flatten) (writeBatches out offset batches) := by
  induction batches generalizing out bytes offset with
  | nil => rwa [flatten_nil, append_nil]
  | cons batch rest ih =>
    rw [flatten_cons, length_append] at hinside
    rw [flatten_cons, ← append_assoc, writeBatches]
    refine ih ⟨h.fed.writeBytes batch, ?_, fun i => ?_⟩ (by rw [length_append, hoffset]) (by omega)
    · rw [SparseFile.pwrite_size_of_le _ _ _ (by rw [h.size]; omega), h.size]
    · subst hoffset
      by_cases hin : bytes.length ≤ i ∧ i < bytes.length + batch.length
      · rw [SparseFile.pwrite_byte_in _ _ _ _ hin.1 hin.2, getD_append_right _ _ _ _ hin.1]
      · rw [SparseFile.pwrite_byte_out _ _ _ _ (by omega), h.byte]
        by_cases hi : i < bytes.length
        · rw [getD_append _ _ _ _ hi]
        · rw [getD_eq_default _ _ (not_lt.mp hi), getD_eq_default]
          rw [length_append]
          omega

lemma Emitted.gap {cursor next : ℕ}
    (hcursor : bytes.length = cursor * blockSize) (hnext : cursor ≤ next) :
    ∃ bytes', bytes'.length = next * blockSize ∧ Emitted hash cs imageSize bytes'
      (if cursor < next then emitZeroGap out (next - cursor) else out) := by
  split
  · refine ⟨_, ?_, h.zeroGap _⟩
    rw [length_append, length_replicate, hcursor, ← Nat.add_mul]
    congr 1
    omega
  · exact ⟨bytes, by rwa [show next = cursor by omega], h⟩

omit h

lemma Emitted.spans {totalBlocks cursor : ℕ} (spans : List EmitSpan)
    (h : Emitted hash cs (totalBlocks * blockSize) bytes out)
    (hcursor : bytes.length = cursor * blockSize) (hle : cursor ≤ totalBlocks)
    (hspans : spansOk totalBlocks cursor spans = true) :
    ∃ all, all.length = totalBlocks * blockSize ∧
      Emitted hash cs (totalBlocks * blockSize) all (writeSpans totalBlocks out cursor spans) := by
  induction spans generalizing out bytes cursor with
  | nil => exact h.gap hcursor hle
  | cons span rest ih =>
    simp only [spansOk, Bool.and_eq_true, decide_eq_true_eq] at hspans
    obtain ⟨⟨hstart, hend⟩, hrest⟩ := hspans
    obtain ⟨gapped, hlen, hgapped⟩ := h.gap hcursor hstart
    have hmul := Nat.mul_le_mul_right blockSize hend
    rw [Nat.add_mul] at hmul
    refine ih (hgapped.batches hlen span.batches (by rwa [span.whole])) ?_ hend hrest
    rw [length_append, hlen, span.whole, Nat.add_mul]

lemma chunkOf_eq_readChunk {src : SourceFile} (hsize : src.file.size = bytes.length)
    (hbyte : ∀ i, src.file.byte i = bytes.getD i 0) (cs c : ℕ) :
    chunkOf cs bytes c = Preload.readChunk src cs c := by
  rw [Preload.readChunk, chunkOf, Lib.eq_slice_iff (by rw [length_take, length_drop, hsize])]
  intro i hlo hhi
  have hlt : i - c * cs < cs := by omega
  rw [hbyte, getD_eq_getElem?_getD, getD_eq_getElem?_getD, List.getElem?_take_of_lt hlt,
    List.getElem?_drop, Nat.add_sub_cancel' hlo]

end Image

variable {bytes : List UInt8}

section Rescan

variable {hash : List UInt8 → Id}

lemma mem_tasks {cs n : ℕ} {task : SealTask} :
    task ∈ (range n).filterMap (taskOf cs bytes) ↔ task.logicalChunk < n ∧
      task.data = chunkOf cs bytes task.logicalChunk ∧
      (chunkOf cs bytes task.logicalChunk).all (· == 0) = false := by
  rw [mem_filterMap]
  constructor
  · rintro ⟨c, hc, htask⟩
    unfold taskOf at htask
    split at htask
    · cases htask
    · next hdata =>
      cases htask
      exact ⟨mem_range.mp hc, rfl, Bool.not_eq_true _ ▸ hdata⟩
  · rintro ⟨hn, hdata, hne⟩
    refine ⟨task.logicalChunk, mem_range.mpr hn, ?_⟩
    rw [taskOf, if_neg (by rw [hne]; decide), ← hdata]

lemma sealBytes_data {data : List UInt8} {id : Id} (h : sealBytes hash data = .data id) :
    data.all (· == 0) = false := by
  unfold sealBytes at h
  split at h
  · cases h
  · next hdata => exact Bool.not_eq_true _ ▸ hdata

lemma draftOf_chunks (decision : ℕ → SealResult Id) (n : ℕ) : (draftOf decision n).chunks =
    (range n).filterMap fun c => (decision c).toEntry.map fun id => ⟨c, id⟩ := by
  induction n with
  | zero => rfl
  | succ n ih =>
    rw [draftOf, range_succ, filterMap_append, ← ih]
    cases hdec : decision n <;> simp [Draft.record, SealResult.toEntry, hdec]

lemma results_eq {cs n : ℕ} {results : ℕ → Option Id}
    (h : ∀ c id, results c = some id ↔ ∃ task ∈ (range n).filterMap (taskOf cs bytes),
      task.logicalChunk = c ∧ sealBytes hash task.data = .data id) {c : ℕ} (hc : c < n) :
    results c = (sealBytes hash (chunkOf cs bytes c)).toEntry := by
  refine Option.ext fun id => ?_
  have hentry (result : SealResult Id) : result.toEntry = some id ↔ result = .data id := by
    cases result <;> simp [SealResult.toEntry]
  rw [h, hentry]
  constructor
  · rintro ⟨task, htask, rfl, hseal⟩
    rwa [(mem_tasks.mp htask).2.1] at hseal
  · exact fun hseal => ⟨⟨c, chunkOf cs bytes c⟩, mem_tasks.mpr ⟨hc, rfl, sealBytes_data hseal⟩,
      rfl, hseal⟩

lemma sealedManifestChunks_eq {cs n : ℕ} {results : ℕ → Option Id}
    (h : ∀ c < n, results c = (sealBytes hash (chunkOf cs bytes c)).toEntry) :
    InlineRootfsCas.sealedManifestChunks results n =
      (draftOf (fun c => sealBytes hash (chunkOf cs bytes c)) n).chunks ∧
    (InlineRootfsCas.sealedManifestChunks results n).length =
      ((range n).filterMap (taskOf cs bytes)).length := by
  have hchunks : InlineRootfsCas.sealedManifestChunks results n =
      (draftOf (fun c => sealBytes hash (chunkOf cs bytes c)) n).chunks := by
    rw [draftOf_chunks]
    exact filterMap_congr fun c hc => by rw [h c (mem_range.mp hc)]
  refine ⟨hchunks, ?_⟩
  rw [hchunks, draftOf_chunks, length_filterMap_eq_countP, length_filterMap_eq_countP]
  refine countP_congr fun c _ => ?_
  unfold taskOf sealBytes
  split <;> simp [SealResult.toEntry]

lemma sealed_of_joined {imageSize chunkSize totalBlocks capacity workers : ℕ}
    {cas : InlineRootfsCas} (hinit : InlineRootfsCas.init imageSize chunkSize = .ok cas)
    (hsize : imageSize = totalBlocks * blockSize) (spans : List EmitSpan)
    (hspans : spansOk totalBlocks 0 spans = true) {pool : Pool Id}
    (hrun : Relation.ReflTransGen (Pool.Step hash capacity workers)
      { waiting := (writeImage imageSize totalBlocks cas spans).cas.close.tasks } pool)
    (hjoined : pool.Joined) :
    ∃ bytes, bytes.length = imageSize ∧
      Emitted hash chunkSize imageSize bytes (writeImage imageSize totalBlocks cas spans) ∧
      (writeImage imageSize totalBlocks cas spans).cas.close.index pool.results =
        manifestIndex imageSize chunkSize
          (draftOf (fun c => sealBytes hash (chunkOf chunkSize bytes c))
            (divCeil imageSize chunkSize)) ∧
      (InlineRootfsCas.sealedManifestChunks pool.results (divCeil imageSize chunkSize)).length =
        (writeImage imageSize totalBlocks cas spans).cas.close.nonzeroChunks := by
  subst hsize
  have hstart : Emitted hash chunkSize (totalBlocks * blockSize) []
      ⟨.zeros (totalBlocks * blockSize), cas⟩ := by
    unfold InlineRootfsCas.init at hinit
    split at hinit
    · cases hinit
      exact ⟨⟨⟨rfl, rfl, rfl, rfl, rfl, rfl, rfl⟩, (Nat.zero_mul _).le, drop_nil.symm⟩, rfl,
        fun _ => rfl⟩
    · cases hinit
  obtain ⟨bytes, hlen, hout⟩ := hstart.spans spans rfl (Nat.zero_le _) hspans
  rw [← writeImage] at hout
  refine ⟨bytes, hlen, hout, ?_⟩
  generalize writeImage (totalBlocks * blockSize) totalBlocks cas spans = out at *
  have hclosed := hlen ▸ hout.fed.close
  rw [hclosed.tasks, hclosed.chunkSize] at hrun
  -- tasks of one number are the same
  have hdistinct : ∀ t ∈ (range (divCeil (totalBlocks * blockSize) chunkSize)).filterMap
      (taskOf chunkSize bytes), ∀ t' ∈ (range (divCeil (totalBlocks * blockSize)
      chunkSize)).filterMap (taskOf chunkSize bytes), t.logicalChunk = t'.logicalChunk →
        t = t' := by
    rintro ⟨c, data⟩ ht ⟨c', data'⟩ ht' (rfl : c = c')
    rw [SealTask.mk.injEq]
    exact ⟨rfl, (mem_tasks.mp ht).2.1.trans (mem_tasks.mp ht').2.1.symm⟩
  obtain ⟨hchunks, hcount⟩ := sealedManifestChunks_eq fun c hc =>
    results_eq (fun _ _ => results_of_joined hdistinct hrun hjoined) hc
  refine ⟨?_, ?_⟩
  · rw [InlineRootfsCas.index, hclosed.imageSize, hclosed.zeroRanges, hclosed.chunkSize, hchunks]
  · rw [hcount, hclosed.nonzeroChunks, hclosed.tasks, hclosed.chunkSize]

/-- The index of an image that was sealed while it was written is the one that a scan of it gives,
whatever the spans and their batches are and however the workers take turns. -/
theorem writeImage_index_eq_rescan (hash : List UInt8 → Id) (stringify : DiskIndex Id → List UInt8)
    {imageSize chunkSize totalBlocks capacity workers : ℕ} {cas : InlineRootfsCas}
    (hinit : InlineRootfsCas.init imageSize chunkSize = .ok cas)
    (hsize : imageSize = totalBlocks * blockSize) (spans : List EmitSpan)
    (hspans : spansOk totalBlocks 0 spans = true) {pool : Pool Id}
    (hrun : Relation.ReflTransGen (Pool.Step hash capacity workers)
      { waiting := (writeImage imageSize totalBlocks cas spans).cas.close.tasks } pool)
    (hjoined : pool.Joined) (image : SourceFile)
    (himage : image.file = (writeImage imageSize totalBlocks cas spans).file) :
    (writeImage imageSize totalBlocks cas spans).cas.close.finish hash stringify pool.results =
      (encodeCanonical hash stringify (fileIndex hash image chunkSize)).map
        fun digest => (digest, fileIndex hash image chunkSize) := by
  obtain ⟨bytes, hlen, hout, hindex, hcount⟩ :=
    sealed_of_joined hinit hsize spans hspans hrun hjoined
  generalize writeImage imageSize totalBlocks cas spans = out at *
  have hclosed := hlen ▸ hout.fed.close
  have hdraft : draftOf (fun c => sealBytes hash (chunkOf chunkSize bytes c))
      (divCeil imageSize chunkSize) =
      draftOf (Preload.decisionOf hash image chunkSize) (divCeil imageSize chunkSize) := by
    refine draftOf_congr fun c _ => ?_
    rw [Preload.decisionOf, chunkOf_eq_readChunk (by rw [himage, hout.size, hlen])
      fun i => by rw [himage, hout.byte]]
  have hsame : out.cas.close.index pool.results = fileIndex hash image chunkSize := by
    rw [hindex, hdraft, fileIndex, himage, hout.size]
  rw [InlineRootfsCas.finish, hclosed.imageSize, hclosed.chunkSize, hsame,
    Lib.Check.rejectIf_bind, if_neg, Lib.Check.rejectIf_bind, if_neg (not_not.mpr hcount)]
  · cases encodeCanonical hash stringify (fileIndex hash image chunkSize) <;> rfl
  · rw [not_or, not_not, not_not]
    exact ⟨hclosed.logicalChunk, hclosed.chunkCount⟩

end Rescan

-- ══ An image of two blocks

def sampleBlock (b : UInt8) : List UInt8 := replicate blockSize b

def sampleCas : InlineRootfsCas := ⟨blockSize, 2 * blockSize, [], 0, [], 0, 0, [], by decide⟩

def sampleSpan : EmitSpan :=
  ⟨0, 2, [sampleBlock 1, sampleBlock 2], by simp [sampleBlock, Nat.two_mul]⟩

def sampleImage : Emission := writeImage (2 * blockSize) 2 sampleCas [sampleSpan]

lemma emitted_sampleImage :
    Emitted id blockSize (2 * blockSize) (sampleBlock 1 ++ sampleBlock 2) sampleImage := by
  have hstart : Emitted id blockSize (2 * blockSize) [] ⟨.zeros (2 * blockSize), sampleCas⟩ :=
    ⟨⟨⟨rfl, rfl, rfl, rfl, rfl, rfl, rfl⟩, (Nat.zero_mul _).le, drop_nil.symm⟩, rfl,
      fun _ => rfl⟩
  have hwritten := hstart.batches rfl [sampleBlock 1, sampleBlock 2]
    (by simp [sampleBlock, Nat.two_mul])
  simpa [sampleImage, writeImage, writeSpans, sampleSpan] using hwritten

lemma sampleImage_tasks :
    sampleImage.cas.close.tasks = [⟨0, sampleBlock 1⟩, ⟨1, sampleBlock 2⟩] := by
  have hclosed := emitted_sampleImage.fed.close
  have hlen : (sampleBlock 1 ++ sampleBlock 2).length = 2 * blockSize := by
    simp [sampleBlock, Nat.two_mul]
  have htwo : divCeil (2 * blockSize) blockSize = 2 := by decide
  have hfirst : chunkOf blockSize (sampleBlock 1 ++ sampleBlock 2) 0 = sampleBlock 1 := by
    simp [chunkOf, sampleBlock]
  have hsecond : chunkOf blockSize (sampleBlock 1 ++ sampleBlock 2) 1 = sampleBlock 2 := by
    simp [chunkOf, sampleBlock]
  have hdata : ¬ (sampleBlock 1).all (· == 0) = true ∧ ¬ (sampleBlock 2).all (· == 0) = true := by
    decide
  rw [hclosed.tasks, hclosed.chunkSize, hlen, htwo]
  simp [range_succ, taskOf, hfirst, hsecond, hdata.1, hdata.2]

def sampleSource : SourceFile where
  file := sampleImage.file
  seekData _ := none
  seekHole _ := none
  size_le := by rw [emitted_sampleImage.size]; decide
  holes_zero := nofun

/-- The second block was sealed before the first. -/
def sampleDone : Pool (List UInt8) :=
  { waiting := []
    results := update (update (fun _ => none) 1 (some (sampleBlock 2))) 0
      (some (sampleBlock 1)) }

theorem writeImage_index_eq_rescan_two_blocks :
    sampleImage.cas.close.finish id (fun _ => [1]) sampleDone.results =
      (encodeCanonical id (fun _ => [1]) (fileIndex id sampleSource blockSize)).map
        fun digest => (digest, fileIndex id sampleSource blockSize) := by
  have hseal : ∀ b ≠ 0, sealBytes id (sampleBlock b) = .data (sampleBlock b) := by
    intro b hb
    rw [sealBytes, if_neg]
    · rfl
    · simp [sampleBlock, hb, show blockSize ≠ 0 by decide]
  have hinit : InlineRootfsCas.init (2 * blockSize) blockSize = .ok sampleCas := rfl
  have hrun : Relation.ReflTransGen (Pool.Step id 2 2)
      { waiting := sampleImage.cas.close.tasks } sampleDone := by
    rw [sampleImage_tasks]
    refine .tail (.tail (.tail (.tail (.tail (.tail .refl (.enqueue rfl (by decide) rfl))
      (.enqueue rfl (by decide) rfl)) (.take rfl (by decide) rfl)) (.take rfl (by decide) rfl))
      (@Pool.Step.complete _ id 2 2 _ ⟨1, sampleBlock 2⟩ [] [⟨0, sampleBlock 1⟩] _ rfl
        (hseal 2 (by decide)))) ?_
    exact @Pool.Step.complete _ id 2 2 _ ⟨0, sampleBlock 1⟩ [] [] _ rfl (hseal 1 (by decide))
  exact writeImage_index_eq_rescan id _ hinit (by decide) [sampleSpan] (by decide) hrun
    ⟨rfl, rfl, rfl, rfl⟩ sampleSource rfl

end SporeVM.InlineCas
