import SporeVM.Netd.Flow

/-!
# Poll results of the relay's flows

In each round the gateway lists the descriptors of its flows, polls them, takes frames from the
guest, and then hands the results of the poll to the flows. A frame can end a flow or start one in
the same slot in between, and the host gives out the numbers of closed descriptors again. A flow
therefore keeps the index of its entry in the list and drops it whenever its descriptor closes.

The host is the table of its open descriptors. Sockets are numbered in the order in which they are
opened, which the gateway cannot see: two sockets with one descriptor number are told apart by it.
-/

namespace SporeVM.Netd

open Function (update update_self update_of_ne)

-- ══ The gateway

abbrev maxFlows : ℕ := 8

/-- A slot for a flow, with the descriptor of the host's socket. `socket` is the number of the
socket that the descriptor stood for when the flow took it. -/
structure Slot where
  flow : Flow := {}
  fd : ℤ := -1
  pollRevents : PollEvents := {}
  pollIndex : Option ℕ := none
  socket : ℕ := 0

structure PortForward where
  fd : ℤ := -1
  pollRevents : PollEvents := {}

structure PollFd where
  fd : ℤ
  events : PollEvents
  revents : PollEvents := {}

structure Gateway where
  flows : Fin maxFlows → Slot := fun _ => {}
  portForwards : List PortForward := []

def Slot.events (slot : Slot) : PollEvents :=
  { output := slot.flow.state = .connecting ∨ slot.flow.toHost.bytes ≠ []
    input := slot.flow.state = .connected ∧ slot.flow.hostEof = false ∧
      0 < slot.flow.toGuest.freeLen }

def fillPortForwards (room : ℕ) (forwards : List PortForward) : List PollFd :=
  forwards.foldl (fun fds forward =>
    if forward.fd < 0 ∨ room ≤ fds.length then fds
    else fds ++ [{ fd := forward.fd, events := { input := true } }]) []

def Slot.setIndex (slot : Slot) (index : Option ℕ) : Slot := { slot with pollIndex := index }

/-- The flows of `fillPollFds`. When there is no room left, the rest of the flows is not visited. -/
def fillFlows (room : ℕ) : List (Fin maxFlows) → (Fin maxFlows → Slot) → List PollFd →
    (Fin maxFlows → Slot) × List PollFd
  | [], flows, fds => (flows, fds)
  | i :: rest, flows, fds =>
    let unlisted := update flows i ((flows i).setIndex none)
    if (flows i).fd < 0 ∨ (flows i).events = {} then fillFlows room rest unlisted fds
    else if room ≤ fds.length then (unlisted, fds)
    else
      fillFlows room rest (update flows i ((flows i).setIndex (some fds.length)))
        (fds ++ [{ fd := (flows i).fd, events := (flows i).events }])

def Gateway.fillPollFds (gateway : Gateway) (room : ℕ) : Gateway × List PollFd :=
  let (flows, fds) := fillFlows room (List.finRange maxFlows) gateway.flows
    (fillPortForwards room gateway.portForwards)
  ({ gateway with flows }, fds)

def servicePortForwards : List PollFd → List PortForward → List PortForward
  | _, [] => []
  | fds, forward :: rest =>
    let forward := { forward with pollRevents := {} }
    if forward.fd < 0 then forward :: servicePortForwards fds rest
    else
      match fds with
      | [] => forward :: rest
      | entry :: fds =>
        { forward with pollRevents := entry.revents } :: servicePortForwards fds rest

def Slot.takeRevents (fds : List PollFd) (slot : Slot) : Slot :=
  match slot.pollIndex with
  | none => { slot with pollRevents := {} }
  | some index =>
    { slot with
      pollIndex := none
      pollRevents := ((fds[index]?.filter (·.fd = slot.fd)).map (·.revents)).getD {} }

def Gateway.servicePoll (gateway : Gateway) (fds : List PollFd) : Gateway :=
  { flows := fun i => (gateway.flows i).takeRevents fds
    portForwards := servicePortForwards fds gateway.portForwards }

def Gateway.freeFlow (gateway : Gateway) : Option (Fin maxFlows) :=
  (List.finRange maxFlows).find? fun i => (gateway.flows i).flow.state = .free

-- ══ The gateway and the host

/-- The gateway with the host's table of descriptors and the results of the last poll. `polled` are
the sockets whose descriptors were listed, and `report` says what was reported for a socket. -/
structure World where
  gateway : Gateway := {}
  table : ℤ → Option ℕ
  opened : ℕ
  fds : List PollFd := []
  polled : List ℕ := []
  report : ℕ → PollEvents := fun _ => {}
  openedAtPoll : ℕ := 0

def freed (table : ℤ → Option ℕ) (fd : ℤ) : ℤ → Option ℕ :=
  if 0 ≤ fd then update table fd none else table

namespace World

/-- `fillPollFds` and the poll. An entry gets what is reported for the socket that its descriptor
stands for. -/
def poll (world : World) (room : ℕ) (report : ℕ → PollEvents) : World :=
  let (gateway, fds) := world.gateway.fillPollFds room
  { world with
    gateway
    fds := fds.map fun entry =>
      { entry with revents := ((world.table entry.fd).map report).getD {} }
    polled := fds.filterMap fun entry => world.table entry.fd
    report
    openedAtPoll := world.opened }

def servicePoll (world : World) : World :=
  { world with gateway := world.gateway.servicePoll world.fds }

def setSlot (world : World) (i : Fin maxFlows) (slot : Slot) : World :=
  { world with
    gateway := { world.gateway with flows := update world.gateway.flows i slot } }

/-- A flow that is started in a slot. When its socket of the host is open, `fd` is the number that
the host gave it. -/
def start (world : World) (i : Fin maxFlows) (flow : Flow) (fd : ℤ) : World :=
  let table := freed world.table (world.gateway.flows i).fd
  if flow.hostOpen = true then
    { world.setSlot i { flow, fd, socket := world.opened } with
      table := update table fd (some world.opened)
      opened := world.opened + 1 }
  else { world.setSlot i { flow } with table }

def settle (world : World) (i : Fin maxFlows) (flow : Flow) : World :=
  let slot := world.gateway.flows i
  if flow.hostOpen = true then world.setSlot i { slot with flow }
  else
    { world.setSlot i { slot with flow, fd := -1, pollIndex := none } with
      table := freed world.table slot.fd }

inductive Step : World → World → Prop
  | poll (world : World) (room : ℕ) (report : ℕ → PollEvents) : Step world (world.poll room report)
  | servicePoll (world : World) : Step world world.servicePoll
  /-- A connection of the guest. -/
  | offer {world : World} {i : Fin maxFlows} (hfree : world.gateway.freeFlow = some i)
      (sock : TcpState) (now : ℕ) (result : OpenResult) {fd : ℤ} (hfd : 0 ≤ fd)
      (hunused : freed world.table (world.gateway.flows i).fd fd = none) :
      Step world (world.start i (Flow.offer sock now result) fd)
  /-- A connection that a listener accepted. -/
  | portForward {world : World} {i : Fin maxFlows} (hfree : world.gateway.freeFlow = some i)
      (now : ℕ) {fd : ℤ} (hfd : 0 ≤ fd)
      (hunused : freed world.table (world.gateway.flows i).fd fd = none) :
      Step world (world.start i (Flow.startPortForward now) fd)
  /-- The stack refuses the connection to the guest, and the new descriptor is closed again. -/
  | portForwardFailed {world : World} {i : Fin maxFlows} (hfree : world.gateway.freeFlow = some i)
      (now : ℕ) (fd : ℤ) :
      Step world (world.start i { (Flow.startPortForward now).closeFd with state := .free } fd)
  | service (world : World) (i : Fin maxFlows) (pass : Pass) :
      Step world (world.settle i (serviceFlow
        { pass with revents := (world.gateway.flows i).pollRevents }
        { flow := (world.gateway.flows i).flow }).flow)
  | abort (world : World) (i : Fin maxFlows) :
      Step world (world.settle i (Relay.abortFlow { flow := (world.gateway.flows i).flow }).flow)
  /-- A segment of the guest for a flow. -/
  | segment (world : World) (i : Fin maxFlows) (sock : TcpSock) :
      Step world (world.setSlot i { world.gateway.flows i with
        flow := { (world.gateway.flows i).flow with sock } })
  | reap {world : World} {i : Fin maxFlows} (hstate : (world.gateway.flows i).flow.state ≠ .free)
      (hreaped : (reapFlow (world.gateway.flows i).flow).state = .free) :
      Step world (world.start i {} (-1))
  /-- Descriptors that are not those of flows are opened and closed, and results of listeners are
  taken. -/
  | other {world : World} {table : ℤ → Option ℕ} {opened : ℕ} (forwards : List PortForward)
      (hflows : ∀ i, 0 ≤ (world.gateway.flows i).fd →
        table (world.gateway.flows i).fd = world.table (world.gateway.flows i).fd)
      (hopened : world.opened ≤ opened)
      (hnumbers : ∀ fd socket, table fd = some socket → socket < opened) :
      Step world { world with
        gateway := { world.gateway with portForwards := forwards }, table, opened }

end World

-- ══ Flows and their descriptors

structure World.Inv (world : World) : Prop where
  held : ∀ i, 0 ≤ (world.gateway.flows i).fd →
    world.table (world.gateway.flows i).fd = some (world.gateway.flows i).socket
  apart : ∀ i j, 0 ≤ (world.gateway.flows i).fd →
    (world.gateway.flows i).fd = (world.gateway.flows j).fd → i = j
  indexed : ∀ i, (world.gateway.flows i).pollIndex ≠ none → 0 ≤ (world.gateway.flows i).fd
  numbered : ∀ fd socket, world.table fd = some socket → socket < world.opened
  before : ∀ socket ∈ world.polled, socket < world.openedAtPoll
  /-- An entry with the descriptor of a flow that still has its index is about its socket. -/
  own : ∀ i, (world.gateway.flows i).pollIndex ≠ none → ∀ entry ∈ world.fds,
    entry.fd = (world.gateway.flows i).fd → (world.gateway.flows i).socket ∈ world.polled ∧
      entry.revents = world.report (world.gateway.flows i).socket

/-- The slots differ in nothing but the results and indexes of the poll, and only open flows have
an index. -/
def SameFlows (flows flows' : Fin maxFlows → Slot) : Prop :=
  ∀ i, (flows' i).fd = (flows i).fd ∧ (flows' i).socket = (flows i).socket ∧
    ((flows' i).pollIndex ≠ none → 0 ≤ (flows i).fd)

lemma sameFlows_setIndex {flows : Fin maxFlows → Slot}
    (hopen : ∀ i, (flows i).pollIndex ≠ none → 0 ≤ (flows i).fd) (i : Fin maxFlows)
    {index : Option ℕ} (hindex : index ≠ none → 0 ≤ (flows i).fd) :
    SameFlows flows (update flows i ((flows i).setIndex index)) := by
  intro j
  by_cases hj : j = i
  · subst hj
    simp only [update_self]
    exact ⟨rfl, rfl, hindex⟩
  · simp only [update_of_ne hj]
    exact ⟨trivial, trivial, hopen j⟩

lemma fillFlows_same (room : ℕ) (todo : List (Fin maxFlows)) (flows : Fin maxFlows → Slot)
    (fds : List PollFd) (hopen : ∀ i, (flows i).pollIndex ≠ none → 0 ≤ (flows i).fd) :
    SameFlows flows (fillFlows room todo flows fds).1 := by
  induction todo generalizing flows fds with
  | nil => exact fun i => ⟨rfl, rfl, hopen i⟩
  | cons next rest ih =>
    -- the rest of the flows after the visited one, whatever index it gets
    have hrest : ∀ index fds, (index ≠ none → 0 ≤ (flows next).fd) → SameFlows flows
        (fillFlows room rest (update flows next ((flows next).setIndex index)) fds).1 := by
      intro index fds hindex i
      have hvisit := sameFlows_setIndex hopen next hindex
      obtain ⟨hfd, hsocket, hlisted⟩ := ih _ fds (fun j hj => (hvisit j).1 ▸ (hvisit j).2.2 hj) i
      exact ⟨hfd.trans (hvisit i).1, hsocket.trans (hvisit i).2.1,
        fun hi => (hvisit i).1 ▸ hlisted hi⟩
    rw [fillFlows]
    split_ifs with hskip hroom
    · exact hrest none fds (by simp)
    · exact sameFlows_setIndex hopen next (by simp)
    · exact hrest _ _ fun _ => not_lt.mp fun hneg => hskip (.inl hneg)

namespace World.Inv

variable {world : World}

lemma reindex (h : world.Inv) {gateway : Gateway} {fds : List PollFd} {polled : List ℕ}
    {report : ℕ → PollEvents} {openedAtPoll : ℕ}
    (hsame : SameFlows world.gateway.flows gateway.flows)
    (hbefore : ∀ socket ∈ polled, socket < openedAtPoll)
    (hown : ∀ i, (gateway.flows i).pollIndex ≠ none → ∀ entry ∈ fds,
      entry.fd = (gateway.flows i).fd → (gateway.flows i).socket ∈ polled ∧
        entry.revents = report (gateway.flows i).socket) :
    { world with gateway, fds, polled, report, openedAtPoll }.Inv where
  held i hfd := by
    obtain ⟨hsamefd, hsocket, -⟩ := hsame i
    rw [hsamefd] at hfd ⊢
    rw [hsocket]
    exact h.held i hfd
  apart i j hfd heq := by
    rw [(hsame i).1] at hfd heq
    rw [(hsame j).1] at heq
    exact h.apart i j hfd heq
  indexed i hindex := by
    rw [(hsame i).1]
    exact (hsame i).2.2 hindex
  numbered := h.numbered
  before := hbefore
  own := hown

lemma poll (h : world.Inv) (room : ℕ) (report : ℕ → PollEvents) : (world.poll room report).Inv := by
  have hsame := fillFlows_same room (List.finRange maxFlows) world.gateway.flows
    (fillPortForwards room world.gateway.portForwards) h.indexed
  refine h.reindex hsame ?_ ?_
  · intro socket hmem
    obtain ⟨entry, -, htable⟩ := List.mem_filterMap.mp hmem
    exact h.numbered _ _ htable
  · intro i hindex entry hentry hfd
    obtain ⟨hsamefd, hsocket, hopen⟩ := hsame i
    obtain ⟨listed, hlisted, rfl⟩ := List.mem_map.mp hentry
    -- the descriptor stood for the flow's socket when it was polled
    have htable : world.table listed.fd = some (world.gateway.flows i).socket := by
      rw [← h.held i (hopen hindex), ← hsamefd]
      exact congrArg world.table hfd
    rw [← hsocket] at htable
    exact ⟨List.mem_filterMap.mpr ⟨listed, hlisted, htable⟩, by simp only [htable]; rfl⟩

lemma takeRevents_same (fds : List PollFd) (slot : Slot) :
    (slot.takeRevents fds).fd = slot.fd ∧ (slot.takeRevents fds).socket = slot.socket ∧
      (slot.takeRevents fds).pollIndex = none := by
  unfold Slot.takeRevents
  split
  · next hnone => exact ⟨rfl, rfl, hnone⟩
  · exact ⟨rfl, rfl, rfl⟩

lemma servicePoll (h : world.Inv) : world.servicePoll.Inv := by
  have hnone : ∀ i, (world.servicePoll.gateway.flows i).pollIndex = none :=
    fun i => (takeRevents_same _ _).2.2
  refine h.reindex ?_ h.before fun i hindex => absurd (hnone i) hindex
  intro i
  obtain ⟨hfd, hsocket, -⟩ := takeRevents_same world.fds (world.gateway.flows i)
  exact ⟨hfd, hsocket, fun hindex => absurd (hnone i) hindex⟩

lemma setSlot (h : world.Inv) (i : Fin maxFlows) (slot : Slot) (table : ℤ → Option ℕ)
    (opened : ℕ) (hheld : 0 ≤ slot.fd → table slot.fd = some slot.socket)
    (hothers : ∀ j, j ≠ i → 0 ≤ (world.gateway.flows j).fd →
      (world.gateway.flows j).fd ≠ slot.fd ∧
        table (world.gateway.flows j).fd = world.table (world.gateway.flows j).fd)
    (hnumbers : ∀ fd socket, table fd = some socket → socket < opened)
    (hindex : slot.pollIndex ≠ none → (world.gateway.flows i).pollIndex ≠ none ∧
      slot.fd = (world.gateway.flows i).fd ∧ slot.socket = (world.gateway.flows i).socket) :
    { world.setSlot i slot with table, opened }.Inv := by
  constructor
  case held =>
    intro j hfd
    by_cases hj : j = i
    · subst hj
      simp only [World.setSlot, update_self] at hfd ⊢
      exact hheld hfd
    · simp only [World.setSlot, update_of_ne hj] at hfd ⊢
      rw [(hothers j hj hfd).2]
      exact h.held j hfd
  case apart =>
    intro j k hfd hsame
    by_cases hj : j = i <;> by_cases hk : k = i
    · rw [hj, hk]
    · subst hj
      simp only [World.setSlot, update_self, update_of_ne hk] at hfd hsame
      exact absurd hsame.symm (hothers k hk (hsame ▸ hfd)).1
    · subst hk
      simp only [World.setSlot, update_self, update_of_ne hj] at hfd hsame
      exact absurd hsame (hothers j hj hfd).1
    · simp only [World.setSlot, update_of_ne hj, update_of_ne hk] at hfd hsame
      exact h.apart j k hfd hsame
  case indexed =>
    intro j hidx
    by_cases hj : j = i
    · subst hj
      simp only [World.setSlot, update_self] at hidx ⊢
      rw [(hindex hidx).2.1]
      exact h.indexed j (hindex hidx).1
    · simp only [World.setSlot, update_of_ne hj] at hidx ⊢
      exact h.indexed j hidx
  case numbered => exact hnumbers
  case before => exact h.before
  case own =>
    intro j hidx entry hentry
    by_cases hj : j = i
    · subst hj
      simp only [World.setSlot, update_self] at hidx ⊢
      obtain ⟨hold, hfd, hsocket⟩ := hindex hidx
      rw [hfd, hsocket]
      exact h.own j hold entry hentry
    · simp only [World.setSlot, update_of_ne hj] at hidx ⊢
      exact h.own j hidx entry hentry

lemma freed_of_ne {table : ℤ → Option ℕ} {fd other : ℤ} (h : other ≠ fd) :
    freed table fd other = table other := by
  unfold freed
  split
  · exact update_of_ne h _ _
  · rfl

lemma freed_lt {table : ℤ → Option ℕ} {opened : ℕ}
    (h : ∀ fd socket, table fd = some socket → socket < opened) (fd : ℤ) :
    ∀ fd' socket, freed table fd fd' = some socket → socket < opened := by
  intro fd' socket hfd'
  by_cases heq : fd' = fd ∧ 0 ≤ fd
  · obtain ⟨rfl, hpos⟩ := heq
    simp [freed, hpos] at hfd'
  · unfold freed at hfd'
    split at hfd'
    · next hpos =>
      rw [update_of_ne fun h => heq ⟨h, hpos⟩] at hfd'
      exact h _ _ hfd'
    · exact h _ _ hfd'

variable (h : world.Inv)

include h

lemma freed_other {i j : Fin maxFlows} (hj : j ≠ i) (hfd : 0 ≤ (world.gateway.flows j).fd) :
    freed world.table (world.gateway.flows i).fd (world.gateway.flows j).fd =
      world.table (world.gateway.flows j).fd :=
  freed_of_ne fun heq => hj (h.apart j i hfd heq)

lemma setClosed (i : Fin maxFlows) (slot : Slot) (hfd : slot.fd = -1)
    (hindex : slot.pollIndex = none) : { world.setSlot i slot with
      table := freed world.table (world.gateway.flows i).fd }.Inv := by
  refine h.setSlot i slot _ world.opened ?_ ?_ (freed_lt h.numbered _) (absurd hindex)
  · omega
  · exact fun j hj hfdj => ⟨by omega, h.freed_other hj hfdj⟩

lemma start (i : Fin maxFlows) (flow : Flow) {fd : ℤ} (hunused : flow.hostOpen = true →
      0 ≤ fd ∧ freed world.table (world.gateway.flows i).fd fd = none) :
    (world.start i flow fd).Inv := by
  unfold World.start
  split
  · next hopen =>
    obtain ⟨hfd, hnone⟩ := hunused hopen
    refine h.setSlot i _ _ _ (fun _ => update_self _ _ _) ?_ ?_ (absurd rfl)
    · intro j hj hfdj
      have hne : (world.gateway.flows j).fd ≠ fd := by
        rintro rfl
        rw [h.freed_other hj hfdj, h.held j hfdj] at hnone
        cases hnone
      exact ⟨hne, by rw [update_of_ne hne, h.freed_other hj hfdj]⟩
    · intro fd' socket hsocket
      by_cases heq : fd' = fd
      · subst heq
        rw [update_self] at hsocket
        have := Option.some.inj hsocket
        omega
      · rw [update_of_ne heq] at hsocket
        exact (freed_lt h.numbered _ _ _ hsocket).trans (Nat.lt_succ_self _)
  · exact h.setClosed i _ rfl rfl

lemma settle (i : Fin maxFlows) (flow : Flow) : (world.settle i flow).Inv := by
  unfold World.settle
  split
  · exact h.setSlot i _ _ _ (h.held i)
      (fun j hj hfdj => ⟨fun heq => hj (h.apart j i hfdj heq), rfl⟩) h.numbered
      fun hindex => ⟨hindex, rfl, rfl⟩
  · exact h.setClosed i _ rfl rfl

lemma step {world' : World} (hstep : World.Step world world') : world'.Inv := by
  cases hstep with
  | poll room report => exact h.poll room report
  | servicePoll => exact h.servicePoll
  | offer hfree sock now result hfd hunused => exact h.start _ _ fun _ => ⟨hfd, hunused⟩
  | portForward hfree now hfd hunused => exact h.start _ _ fun _ => ⟨hfd, hunused⟩
  | portForwardFailed hfree now fd => exact h.start _ _ fun hopen => by cases hopen
  | service i pass => exact h.settle i _
  | abort i => exact h.settle i _
  | segment i sock =>
    exact h.setSlot i _ _ _ (h.held i)
      (fun j hj hfdj => ⟨fun heq => hj (h.apart j i hfdj heq), rfl⟩) h.numbered
      fun hindex => ⟨hindex, rfl, rfl⟩
  | reap hstate hreaped => exact h.start _ _ fun hopen => by cases hopen
  | other forwards hflows hopened hnumbers =>
    exact ⟨fun i hfd => (hflows i hfd).trans (h.held i hfd), h.apart, h.indexed, hnumbers,
      h.before, h.own⟩

lemma run {world' : World} (hrun : Relation.ReflTransGen World.Step world world') : world'.Inv := by
  induction hrun with
  | refl => exact h
  | tail _ hstep ih => exact ih.step hstep

end World.Inv

def World.start₀ (table : ℤ → Option ℕ) (opened : ℕ) (forwards : List PortForward) : World :=
  { gateway := { portForwards := forwards }, table, opened }

/-- When the results of a poll are handed out, the flow of a slot gets none, or that of its own
socket, which was in the list of that poll and is still open. A flow whose socket was opened after
the poll gets none. -/
theorem servicePoll_reports_own_socket {table : ℤ → Option ℕ} {opened : ℕ}
    (hnumbers : ∀ fd socket, table fd = some socket → socket < opened)
    {forwards : List PortForward} {world : World}
    (hrun : Relation.ReflTransGen World.Step (World.start₀ table opened forwards) world)
    (i : Fin maxFlows) : ((world.servicePoll.gateway.flows i).pollRevents ≠ {} →
      0 ≤ (world.gateway.flows i).fd ∧
      world.table (world.gateway.flows i).fd = some (world.gateway.flows i).socket ∧
      (world.gateway.flows i).socket ∈ world.polled ∧
      (world.servicePoll.gateway.flows i).pollRevents =
        world.report (world.gateway.flows i).socket) ∧
    (world.openedAtPoll ≤ (world.gateway.flows i).socket →
      (world.servicePoll.gateway.flows i).pollRevents = {}) := by
  have h : world.Inv := by
    have hclosed : ∀ i, ¬0 ≤ ((World.start₀ table opened forwards).gateway.flows i).fd :=
      fun _ => show ¬(0 : ℤ) ≤ -1 by decide
    exact World.Inv.run ⟨fun i hfd => absurd hfd (hclosed i), fun i _ hfd => absurd hfd (hclosed i),
      fun _ hindex => absurd rfl hindex, hnumbers, by simp [World.start₀],
      fun _ hindex => absurd rfl hindex⟩ hrun
  have hown : (world.servicePoll.gateway.flows i).pollRevents ≠ {} →
      (world.gateway.flows i).pollIndex ≠ none ∧
      (world.gateway.flows i).socket ∈ world.polled ∧
      (world.servicePoll.gateway.flows i).pollRevents =
        world.report (world.gateway.flows i).socket := by
    intro hrevents
    simp only [World.servicePoll, Gateway.servicePoll, Slot.takeRevents] at hrevents ⊢
    cases hindex : (world.gateway.flows i).pollIndex with
    | none => simp [hindex] at hrevents
    | some index =>
      simp only [hindex] at hrevents ⊢
      -- a result is that of the entry at the flow's index, with the flow's descriptor
      cases hentry : world.fds[index]?.filter (·.fd = (world.gateway.flows i).fd) with
      | none => simp [hentry] at hrevents
      | some entry =>
        obtain ⟨hget, hfd⟩ := Option.filter_eq_some_iff.mp hentry
        obtain ⟨hmem, hreport⟩ := h.own i (by simp [hindex]) entry (List.mem_of_getElem? hget)
          (by simpa using hfd)
        exact ⟨by simp, hmem, hreport⟩
  constructor
  · intro hrevents
    obtain ⟨hindex, hmem, hreport⟩ := hown hrevents
    exact ⟨h.indexed i hindex, h.held i (h.indexed i hindex), hmem, hreport⟩
  · intro hlate
    by_contra hrevents
    exact absurd (h.before _ (hown hrevents).2.1) (by omega)

def polledTwo : World :=
  (((World.start₀ (fun _ => none) 0 []).start 0 (.offer .synReceived 0 .connected) 3).start 1
    (.offer .synReceived 0 .connected) 4).poll 9 fun _ => { input := true }

def abortedOne : World :=
  polledTwo.settle 0 (Relay.abortFlow { flow := (polledTwo.gateway.flows 0).flow }).flow

def closedOne : World :=
  abortedOne.setSlot 0 { abortedOne.gateway.flows 0 with
    flow := { (abortedOne.gateway.flows 0).flow with
      sock := { state := .closed, bound := false } } }

/-- Between the poll and its results the first slot and its number go to another connection. -/
def reused : World := (closedOne.start 0 {} (-1)).start 0 (.offer .synReceived 0 .connected) 3

theorem servicePoll_reports_own_socket_reused :
    ((polledTwo.gateway.flows 0).fd = 3 ∧ (reused.gateway.flows 0).fd = 3) ∧
      (reused.servicePoll.gateway.flows 0).pollRevents = {} ∧
      (reused.servicePoll.gateway.flows 1).pollRevents ≠ {} ∧
      (reused.gateway.flows 1).socket ∈ reused.polled := by
  have hpoll : Relation.ReflTransGen World.Step (World.start₀ (fun _ => none) 0 []) polledTwo :=
    ((Relation.ReflTransGen.single (.offer rfl .synReceived 0 .connected (by decide) rfl)).tail
      (.offer rfl .synReceived 0 .connected (by decide) rfl)).tail (.poll _ 9 _)
  have hrun : Relation.ReflTransGen World.Step (World.start₀ (fun _ => none) 0 []) reused :=
    (((hpoll.tail (.abort polledTwo 0)).tail
      (.segment abortedOne 0 { state := .closed, bound := false })).tail
      (.reap (by decide) (by decide))).tail (.offer rfl .synReceived 0 .connected (by decide) rfl)
  have hrevents : (reused.servicePoll.gateway.flows 1).pollRevents ≠ {} := by decide
  have hown := servicePoll_reports_own_socket (by simp) hrun
  exact ⟨by decide, (hown 0).2 (by decide), hrevents, ((hown 1).1 hrevents).2.2.1⟩

end SporeVM.Netd
