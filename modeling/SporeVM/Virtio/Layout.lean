import SporeVM.Virtio.Chains
import SporeVM.Virtio.Devices

/-!
# What a notification leaves alone

A device that is notified works on its queues: it moves on in their rings. It never changes where
the rings are, how large they are or whether a queue is ready; only the transport does.
`KeepsLayout` says so of a computation, and the section for each device says so of its notification,
whatever the guest has put into its memory. -/

namespace SporeVM.Virtio

open Lib.EState (Keeps capture Stays)
open Queue (DeviceM Machine VirtQueue popAvail pushUsed serve)

-- ══ Layouts

structure Layout where
  size : ℕ
  ready : Bool
  descAddr : ℕ
  availAddr : ℕ
  usedAddr : ℕ
  deriving DecidableEq

def Queue.VirtQueue.layout (q : VirtQueue) : Layout :=
  ⟨q.size, q.ready, q.descAddr, q.availAddr, q.usedAddr⟩

section Rules

variable {D α β : Type}

def Queue.Machine.layouts (m : Machine D) (qi : ℕ) : Layout := (m.queues qi).layout

def KeepsLayout (x : DeviceM D α) : Prop :=
  ∀ layouts, Keeps (fun m => m.layouts = layouts) x fun _ => True

variable {x : DeviceM D α}

namespace KeepsLayout

lemma pure (a : α) : KeepsLayout (Pure.pure a : DeviceM D α) := fun _ => Stays.pure

lemma bind {f : α → DeviceM D β} (hx : KeepsLayout x)
    (hf : ∀ a, KeepsLayout (f a)) : KeepsLayout (x >>= f) :=
  fun layouts => (hx layouts).bind fun a _ => hf a layouts

lemma capture (hx : KeepsLayout x) : KeepsLayout (Lib.EState.capture x) :=
  fun layouts => (hx layouts).capture.stays

lemma runIf {p : Prop} [Decidable p] {x : DeviceM D Unit} (hx : KeepsLayout x) :
    KeepsLayout (Lib.EState.runIf p x) :=
  fun layouts => .runIf fun _ => hx layouts

lemma get : KeepsLayout (MonadState.get : DeviceM D (Machine D)) :=
  fun _ => Keeps.get.stays

lemma modify {f : Machine D → Machine D} (h : ∀ m, (f m).queues = m.queues) :
    KeepsLayout (MonadState.modifyGet fun m => (PUnit.unit, f m) : DeviceM D PUnit) := by
  refine fun layouts => .modify fun m hm => ?_
  rw [← hm]
  funext qi
  rw [Machine.layouts, Machine.layouts, h]

end KeepsLayout

lemma layouts_update {m : Machine D} {qi : ℕ} {q : VirtQueue} {layouts : ℕ → Layout}
    (hm : m.layouts = layouts) (hq : q.layout = layouts qi) :
    ({ m with queues := Function.update m.queues qi q } : Machine D).layouts = layouts := by
  funext i
  show (Function.update m.queues qi q i).layout = layouts i
  by_cases hi : i = qi
  · subst hi
    rw [Function.update_self, hq]
  · rw [Function.update_of_ne hi, ← hm, Machine.layouts]

lemma popAvail_layout (qi : ℕ) : KeepsLayout (popAvail qi : DeviceM D _) := by
  refine fun layouts => Queue.popAvail_keeps ⟨fun _ h => h, fun _ _ _ h _ => h⟩ ?_
  intro m₀ m hm₀ hm
  exact layouts_update hm (congrFun hm₀ qi)

lemma pushUsed_layout (qi head written : ℕ) :
    KeepsLayout (pushUsed qi head written : DeviceM D Unit) := by
  refine fun layouts => Queue.pushUsed_keeps (fun len gpa value => ?_) ?_ head written
  · exact (Queue.checkSlice_keeps gpa len).bind fun _ _ => .modify fun _ h => h
  · intro m₀ m usedIdx hm₀ hm
    exact layouts_update hm (congrFun hm₀ qi)

lemma markWritableDirty_layout (chain : Queue.Chain) :
    KeepsLayout (chain.markWritableDirty : DeviceM D Unit) :=
  KeepsLayout.modify fun _ => rfl

lemma KeepsLayout.capture_bind {f : Except Queue.QueueError α → DeviceM D β}
    (hx : KeepsLayout x) (herror : ∀ e, KeepsLayout (f (.error e)))
    (hok : ∀ a, KeepsLayout (f (.ok a))) : KeepsLayout (Lib.EState.capture x >>= f) :=
  hx.capture.bind fun reply => by
    cases reply with
    | error e => exact herror e
    | ok a => exact hok a

lemma popAvail_bind_layout {qi : ℕ} {f : Except Queue.QueueError (Option Queue.Chain) → DeviceM D α}
    (herror : ∀ e, KeepsLayout (f (.error e))) (hnone : KeepsLayout (f (.ok none)))
    (hsome : ∀ chain, KeepsLayout (f (.ok (some chain)))) :
    KeepsLayout (capture (popAvail qi) >>= f) :=
  (popAvail_layout qi).capture_bind herror fun popped => by
    cases popped with
    | none => exact hnone
    | some chain => exact hsome chain

lemma serve_layout (qi : ℕ) (handle : Queue.Handler D) :
    ∀ (budget : ℕ) (didWork : Bool), KeepsLayout (serve qi handle budget didWork)
  | 0, _ => .pure _
  | budget + 1, didWork => by
    refine popAvail_bind_layout (fun _ => .pure _) (.pure _) fun chain => ?_
    have hhandle : KeepsLayout (Queue.runHandler handle chain) := fun layouts m hm => ⟨hm, trivial⟩
    exact hhandle.bind fun written => (markWritableDirty_layout chain).bind fun _ =>
      (pushUsed_layout qi _ _).capture_bind (fun _ => .pure _) fun _ =>
        serve_layout qi handle budget true

end Rules

-- ══ The devices

lemma Rng.notify_layout (qi : ℕ) : KeepsLayout (Rng.notify qi) := by
  unfold Rng.notify
  split
  · exact .pure _
  · exact serve_layout 0 _ _ _

lemma Mem.notify_layout (qi : ℕ) : KeepsLayout (Mem.notify qi) := by
  unfold Mem.notify
  split
  · exact .pure _
  · exact serve_layout 0 _ _ _

namespace Console

lemma drainTx_layout : ∀ (budget : ℕ) (didWork : Bool), KeepsLayout (drainTx budget didWork)
  | 0, _ => .pure _
  | budget + 1, _ => by
    refine popAvail_bind_layout (fun _ => .pure _) (.pure _) fun chain => ?_
    refine @KeepsLayout.bind _ PUnit _ _ _ ?_ fun _ =>
      (pushUsed_layout _ _ _).capture_bind (fun _ => .pure _) fun _ => drainTx_layout budget true
    exact .modify fun _ => rfl

lemma notify_layout (qi : ℕ) : KeepsLayout (Console.notify qi) := by
  unfold Console.notify
  split
  · exact .pure _
  · exact drainTx_layout _ _

end Console

namespace Net

lemma modifyNet_layout (f : Net → Net) : KeepsLayout (modifyNet f) :=
  KeepsLayout.modify fun _ => rfl

lemma drainTx_layout : ∀ (budget : ℕ) (didWork : Bool), KeepsLayout (drainTx budget didWork)
  | 0, _ => .pure _
  | budget + 1, _ =>
    popAvail_bind_layout (fun _ => .pure _) (.pure _) fun _ => KeepsLayout.get.bind fun _ =>
      (modifyNet_layout _).bind fun _ =>
        (pushUsed_layout _ _ _).capture_bind (fun _ => .pure _) fun _ => drainTx_layout budget true

lemma storeFrameM_layout (chain : Queue.Chain) (frame : Bytes) :
    KeepsLayout (storeFrameM chain frame) :=
  fun _ _ hm => ⟨hm, trivial⟩

lemma flushRx_layout : ∀ (budget : ℕ) (didWork : Bool), KeepsLayout (flushRx budget didWork)
  | 0, _ => .pure _
  | budget + 1, didWork => by
    refine (modifyNet_layout _).bind fun _ => KeepsLayout.get.bind fun m => ?_
    cases hrx : m.device.rx with
    | nil => exact .pure _
    | cons frame _ =>
      refine popAvail_bind_layout (fun _ => .pure _) (.pure _) fun chain =>
        (storeFrameM_layout _ _).bind fun written =>
          (markWritableDirty_layout chain).runIf.bind fun _ =>
            (pushUsed_layout _ _ _).capture_bind (fun _ => .pure _) fun _ =>
              (modifyNet_layout _).runIf.bind fun _ => flushRx_layout budget true

lemma notify_layout (qi : ℕ) : KeepsLayout (Net.notify qi) := by
  unfold Net.notify
  split_ifs
  · exact (drainTx_layout _ _).bind fun _ => (flushRx_layout _ _).bind fun _ => .pure _
  · exact flushRx_layout _ _
  · exact .pure _

end Net

namespace VsockRam

lemma modifyVsock_layout (f : Vsock → Vsock) : KeepsLayout (modifyVsock f) :=
  KeepsLayout.modify fun _ => rfl

lemma storePacketM_layout (chain : Queue.Chain) (packet : Packet) :
    KeepsLayout (storePacketM chain packet) :=
  fun _ _ hm => ⟨hm, trivial⟩

lemma flushRx_layout : ∀ (budget : ℕ) (didWork : Bool), KeepsLayout (flushRx budget didWork)
  | 0, _ => .pure _
  | budget + 1, didWork => by
    refine KeepsLayout.get.bind fun m => ?_
    cases hpending : m.device.pending with
    | nil => exact .pure _
    | cons packet rest =>
      refine popAvail_bind_layout (fun _ => .pure _) (.pure _) fun chain =>
        KeepsLayout.get.bind fun _ => (storePacketM_layout _ _).bind fun written =>
          (markWritableDirty_layout chain).bind fun _ =>
            (pushUsed_layout _ _ _).capture_bind (fun _ => .pure _) fun _ =>
              (modifyVsock_layout _).bind fun _ => flushRx_layout budget true

variable (before : ℕ → List HostStream.Enqueue) (between : ℕ → Attached.Between)

lemma processChains_layout :
    ∀ (budget : ℕ) (didWork : Bool), KeepsLayout (processChains before between budget didWork)
  | 0, _ => .pure _
  | budget + 1, _ =>
    (modifyVsock_layout _).bind fun _ =>
      popAvail_bind_layout (fun _ => .pure _) (.pure _) fun _ => KeepsLayout.get.bind fun _ =>
        (modifyVsock_layout _).bind fun _ =>
          (pushUsed_layout _ _ _).capture_bind (fun _ => .pure _) fun _ =>
            processChains_layout budget true

lemma processTx_layout : KeepsLayout (processTx before between) := by
  refine (processChains_layout before between _ _).bind fun result => ?_
  obtain ⟨didWork, budget⟩ := result
  cases budget with
  | none => exact .pure _
  | some budget =>
    exact (modifyVsock_layout _).bind fun _ => (flushRx_layout _ _).bind fun _ => .pure _

lemma notify_layout (qi : ℕ) : KeepsLayout (VsockRam.notify before between qi) := by
  unfold VsockRam.notify
  split_ifs
  · exact processTx_layout before between
  · exact flushRx_layout _ _
  · exact .pure _

end VsockRam

lemma Blk.notify_layout {Id : Type} [DecidableEq Id] (hash : List UInt8 → Id) (qi : ℕ) :
    KeepsLayout (Blk.notify hash qi) := by
  intro layouts
  refine Keeps.get.bind fun m hm => ?_
  split
  · exact Stays.pure
  · split
    · exact fun _ _ => ⟨hm, trivial⟩
    · exact serve_layout 0 _ _ _ layouts

end SporeVM.Virtio
