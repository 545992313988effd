import Lmc.Lib.Table
import Lmc.Tree.Set

/-!
# What clients and the transceiver share

`ClientShared` is the record behind the `Arc`: the counters of identifiers, three maps
in which publishers wait for an acknowledgement, and the map of subscription states.
`PublishFuture` and `SubscribeFuture` are the futures that wait in them.

Polling stores the waker of the polling task. A `Waker` here is the number of the poll
that stored it, so every stored waker is a different one, and a waker that was woken was
woken after it was stored. Two fields record history and are read by no function: the
owner of a slot is the call that pushed it, and `latest` is the waker that the last
pending poll of a future stored.
-/

namespace Lmc

/-- A waker, named after the poll that stored it. -/
abbrev Waker := Nat

/-! ## The shared record -/

inductive NotifyResult where
  | withoutWaker
  | withWaker (waker : Waker)
  | failed
deriving DecidableEq, Repr

abbrev NotifierMap := LmcHashMap UInt16 NotifyResult

/-- An element of the list of wakers of a pending subscription. -/
structure Slot where
  owner : Nat
  waker : Option Waker
deriving DecidableEq, Repr

inductive SubscriptionState where
  | existing (qos : QoS)
  | pending (wakers : List Slot)
deriving DecidableEq, Repr

structure ClientShared where
  nextPacketId : UInt16
  notifyAck : NotifierMap
  notifyRec : NotifierMap
  notifyComp : NotifierMap
  subs : LmcHashMap Str SubscriptionState
  nextCallbackId : UInt32

/-- The instances of `NotifierMapAccessor`. -/
inductive Notifier where
  | pubAck
  | pubRec
  | pubComp
deriving DecidableEq, Repr

namespace ClientShared

def new : ClientShared := ⟨1, ∅, ∅, ∅, ∅, 0⟩

/-- `access_notifier_map`. -/
def notifierMap (sh : ClientShared) : Notifier → NotifierMap
  | .pubAck => sh.notifyAck
  | .pubRec => sh.notifyRec
  | .pubComp => sh.notifyComp

def setNotifierMap (n : Notifier) (m : NotifierMap) (sh : ClientShared) : ClientShared :=
  match n with
  | .pubAck => { sh with notifyAck := m }
  | .pubRec => { sh with notifyRec := m }
  | .pubComp => { sh with notifyComp := m }

/-- `next_packet_id.fetch_add(1)` behind the value it returns. -/
def bumpPacketId (sh : ClientShared) : ClientShared :=
  { sh with nextPacketId := sh.nextPacketId + 1 }

def setSubs (subs : LmcHashMap Str SubscriptionState) (sh : ClientShared) : ClientShared :=
  { sh with subs }

section Fields

variable (sh : ClientShared) (n : Notifier) (m : NotifierMap)
  (subs : LmcHashMap Str SubscriptionState)

theorem notifierMap_setNotifierMap (n' : Notifier) :
    (sh.setNotifierMap n m).notifierMap n' = if n' = n then m else sh.notifierMap n' := by
  cases n <;> cases n' <;> rfl

@[simp] theorem nextCallbackId_setNotifierMap :
    (sh.setNotifierMap n m).nextCallbackId = sh.nextCallbackId := by cases n <;> rfl

@[simp] theorem nextPacketId_setNotifierMap :
    (sh.setNotifierMap n m).nextPacketId = sh.nextPacketId := by cases n <;> rfl

@[simp] theorem subs_setNotifierMap : (sh.setNotifierMap n m).subs = sh.subs := by
  cases n <;> rfl

@[simp] theorem notifierMap_setSubs (n' : Notifier) :
    (sh.setSubs subs).notifierMap n' = sh.notifierMap n' := by cases n' <;> rfl

@[simp] theorem nextPacketId_setSubs : (sh.setSubs subs).nextPacketId = sh.nextPacketId := rfl

@[simp] theorem subs_setSubs : (sh.setSubs subs).subs = subs := rfl

@[simp] theorem notifierMap_bumpPacketId (n' : Notifier) :
    sh.bumpPacketId.notifierMap n' = sh.notifierMap n' := by cases n' <;> rfl

@[simp] theorem subs_bumpPacketId : sh.bumpPacketId.subs = sh.subs := rfl

end Fields

end ClientShared

/-! ## Waiting for an acknowledgement -/

inductive Poll (α : Type) where
  | pending
  | ready (value : α)
deriving DecidableEq, Repr

structure PublishFuture where
  packetId : UInt16
  notifier : Notifier
  result : Option Bool
  latest : Option Waker
deriving DecidableEq, Repr

namespace PublishFuture

/-- `PublishFuture::new` registers in the map. -/
def new (packetId : UInt16) (notifier : Notifier) (sh : ClientShared) :
    PublishFuture × ClientShared :=
  (⟨packetId, notifier, none, none⟩,
    sh.setNotifierMap notifier ((sh.notifierMap notifier).insert packetId .withoutWaker))

/-- One poll. `true` means that the transceiver task has ended. -/
def poll (fut : PublishFuture) (waker : Waker) (sh : ClientShared) :
    Poll Bool × PublishFuture × ClientShared :=
  match fut.result with
  | some ret => (.ready ret, fut, sh)
  | none =>
    match (sh.notifierMap fut.notifier).lookup fut.packetId with
    | some .failed => (.ready true, { fut with result := some true }, sh)
    | some _ =>
      (.pending, { fut with latest := some waker },
        sh.setNotifierMap fut.notifier
          ((sh.notifierMap fut.notifier).insert fut.packetId (.withWaker waker)))
    | none => (.ready false, { fut with result := some false }, sh)

/-- `Drop` of a future. -/
def drop (fut : PublishFuture) (sh : ClientShared) : ClientShared :=
  if fut.result.isNone then
    sh.setNotifierMap fut.notifier ((sh.notifierMap fut.notifier).erase fut.packetId)
  else sh

/-- A poll is ready or stores its waker. -/
theorem poll_cases (fut : PublishFuture) (waker : Waker) (sh : ClientShared) :
    (∃ ended fut', fut.poll waker sh = (.ready ended, fut', sh)) ∨
      ∃ r, (sh.notifierMap fut.notifier).lookup fut.packetId = some r ∧ r ≠ .failed ∧
        fut.result = none ∧ fut.poll waker sh = (.pending, { fut with latest := some waker },
          sh.setNotifierMap fut.notifier
            ((sh.notifierMap fut.notifier).insert fut.packetId (.withWaker waker))) := by
  obtain ⟨packetId, notifier, result, latest⟩ := fut
  unfold poll
  cases result with
  | some ended => exact Or.inl ⟨ended, _, rfl⟩
  | none =>
    cases (sh.notifierMap notifier).lookup packetId with
    | none => exact Or.inl ⟨false, _, rfl⟩
    | some r =>
      cases r with
      | failed => exact Or.inl ⟨true, _, rfl⟩
      | withoutWaker => exact Or.inr ⟨_, rfl, NotifyResult.noConfusion, rfl, rfl⟩
      | withWaker w => exact Or.inr ⟨_, rfl, NotifyResult.noConfusion, rfl, rfl⟩

/-- A first poll that is ready has found a failed entry or none. -/
theorem entry_of_poll {fut fut' : PublishFuture} {waker : Waker} {sh sh' : ClientShared}
    {ended : Bool} (h : fut.poll waker sh = (.ready ended, fut', sh'))
    (hresult : fut.result = none) :
    ended = true ∧ (sh.notifierMap fut.notifier).lookup fut.packetId = some .failed ∨
      ended = false ∧ (sh.notifierMap fut.notifier).lookup fut.packetId = none := by
  obtain ⟨packetId, notifier, result, latest⟩ := fut
  cases hresult
  unfold poll at h
  cases hentry : (sh.notifierMap notifier).lookup packetId with
  | none =>
    simp only [hentry, Prod.mk.injEq, Poll.ready.injEq] at h
    exact Or.inr ⟨h.1.symm, rfl⟩
  | some r =>
    cases r with
    | failed =>
      simp only [hentry, Prod.mk.injEq, Poll.ready.injEq] at h
      exact Or.inl ⟨h.1.symm, rfl⟩
    | withoutWaker => simp [hentry] at h
    | withWaker w => simp [hentry] at h

theorem lookup_new (packetId : UInt16) (n : Notifier) (sh : ClientShared) :
    ((new packetId n sh).2.notifierMap n).lookup packetId = some .withoutWaker := by
  rw [new, ClientShared.notifierMap_setNotifierMap, if_pos rfl]
  exact AList.lookup_insert _

theorem nextPacketId_drop (fut : PublishFuture) (sh : ClientShared) :
    (fut.drop sh).nextPacketId = sh.nextPacketId := by
  unfold drop
  split
  · exact sh.nextPacketId_setNotifierMap _ _
  · rfl

theorem nextCallbackId_drop (fut : PublishFuture) (sh : ClientShared) :
    (fut.drop sh).nextCallbackId = sh.nextCallbackId := by
  unfold drop
  split
  · exact sh.nextCallbackId_setNotifierMap _ _
  · rfl

/-- A future that is dropped leaves no entry behind. -/
theorem lookup_drop {fut : PublishFuture} (h : fut.result = none) (sh : ClientShared) :
    ((fut.drop sh).notifierMap fut.notifier).lookup fut.packetId = none := by
  rw [drop, h, Option.isNone_none, if_pos rfl, ClientShared.notifierMap_setNotifierMap,
    if_pos rfl, Table.lookup_erase, if_pos rfl]

end PublishFuture

/-! ## Waiting for a subscription -/

structure SubscribeFuture where
  topic : Str
  wakerIndex : Option Nat
  result : Option (Except Unit QoS)
  latest : Option Waker
deriving DecidableEq, Repr

namespace SubscribeFuture

def new (topic : Str) : SubscribeFuture := ⟨topic, none, none, none⟩

/-- The assignment `wakers[i] = waker`. -/
def assign (wakers : List Slot) (i : Nat) (waker : Option Waker) : Except Panic (List Slot) :=
  match wakers[i]? with
  | none => .error .wakerOutOfRange
  | some slot => .ok (wakers.set i { slot with waker })

/-- One poll by the call `owner`. -/
def poll (owner : Nat) (fut : SubscribeFuture) (waker : Waker) (sh : ClientShared) :
    Except Panic (Poll (Except Unit QoS) × SubscribeFuture × ClientShared) :=
  match fut.result with
  | some result => .ok (.ready result, fut, sh)
  | none =>
    match sh.subs.lookup fut.topic with
    | none => .ok (.ready (.error ()), { fut with result := some (.error ()) }, sh)
    | some (.existing qos) => .ok (.ready (.ok qos), { fut with result := some (.ok qos) }, sh)
    | some (.pending wakers) =>
      match fut.wakerIndex with
      | some i => do
        let wakers ← assign wakers i (some waker)
        return (.pending, { fut with latest := some waker },
          sh.setSubs (sh.subs.insert fut.topic (.pending wakers)))
      | none =>
        .ok (.pending, { fut with wakerIndex := some wakers.length, latest := some waker },
          sh.setSubs (sh.subs.insert fut.topic (.pending (wakers ++ [⟨owner, some waker⟩]))))

/-- `Drop` of a future. -/
def drop (fut : SubscribeFuture) (sh : ClientShared) : Except Panic ClientShared :=
  if fut.result.isNone then
    match fut.wakerIndex with
    | none => .ok sh
    | some i =>
      match sh.subs.lookup fut.topic with
      | some (.pending wakers) => do
        let wakers ← assign wakers i none
        return sh.setSubs (sh.subs.insert fut.topic (.pending wakers))
      | _ => .ok sh
  else .ok sh

/-- A poll is ready, stores its waker in its slot, pushes a slot, or panics because its
slot does not exist. -/
theorem poll_cases (owner : Nat) (fut : SubscribeFuture) (waker : Waker) (sh : ClientShared) :
    (∃ result fut', fut.poll owner waker sh = .ok (.ready result, fut', sh)) ∨
      fut.result = none ∧ ∃ slots, sh.subs.lookup fut.topic = some (.pending slots) ∧
        ((∃ i, fut.wakerIndex = some i ∧ slots[i]? = none ∧
            fut.poll owner waker sh = .error .wakerOutOfRange) ∨
          (∃ i slot, fut.wakerIndex = some i ∧ slots[i]? = some slot ∧
            fut.poll owner waker sh = .ok (.pending, { fut with latest := some waker },
              sh.setSubs (sh.subs.insert fut.topic
                (.pending (slots.set i { slot with waker := some waker }))))) ∨
          fut.wakerIndex = none ∧ fut.poll owner waker sh = .ok (.pending,
            { fut with wakerIndex := some slots.length, latest := some waker },
            sh.setSubs (sh.subs.insert fut.topic
              (.pending (slots ++ [⟨owner, some waker⟩]))))) := by
  obtain ⟨topic, wakerIndex, result, latest⟩ := fut
  unfold poll
  cases result with
  | some result => exact Or.inl ⟨result, _, rfl⟩
  | none =>
    match sh.subs.lookup topic with
    | none => exact Or.inl ⟨.error (), _, rfl⟩
    | some (.existing qos) => exact Or.inl ⟨.ok qos, _, rfl⟩
    | some (.pending slots) =>
      refine Or.inr ⟨rfl, slots, rfl, ?_⟩
      cases wakerIndex with
      | none => exact Or.inr (Or.inr ⟨rfl, rfl⟩)
      | some i =>
        simp only [assign]
        cases hslot : slots[i]? with
        | none => exact Or.inl ⟨i, rfl, hslot, rfl⟩
        | some slot => exact Or.inr (Or.inl ⟨i, slot, rfl, hslot, rfl⟩)

/-- A poll that succeeds for the first time has found the topic. -/
theorem entry_of_poll {owner : Nat} {fut fut' : SubscribeFuture} {waker : Waker}
    {sh sh' : ClientShared} {result : Except Unit QoS} {qos : QoS}
    (h : fut.poll owner waker sh = .ok (.ready result, fut', sh')) (hok : result = .ok qos)
    (hlive : fut.result = none) : sh.subs.lookup fut.topic = some (.existing qos) := by
  subst hok
  unfold poll at h
  rw [hlive] at h
  match hentry : sh.subs.lookup fut.topic with
  | none =>
    simp only [hentry] at h
    cases h
  | some (.existing actual) =>
    simp only [hentry] at h
    cases h
    rfl
  | some (.pending slots) =>
    simp only [hentry] at h
    cases hi : fut.wakerIndex with
    | none =>
      simp only [hi] at h
      cases h
    | some i =>
      simp only [hi, assign] at h
      cases hslot : slots[i]? <;> simp only [hslot] at h <;> cases h

/-- A drop changes nothing, clears its slot, or panics because its slot does not exist. -/
theorem drop_cases (fut : SubscribeFuture) (sh : ClientShared) :
    fut.drop sh = .ok sh ∨
      fut.result = none ∧ ∃ slots i, sh.subs.lookup fut.topic = some (.pending slots) ∧
        fut.wakerIndex = some i ∧
        (slots[i]? = none ∧ fut.drop sh = .error .wakerOutOfRange ∨
          ∃ slot, slots[i]? = some slot ∧ fut.drop sh = .ok (sh.setSubs (sh.subs.insert
            fut.topic (.pending (slots.set i { slot with waker := none }))))) := by
  obtain ⟨topic, wakerIndex, result, latest⟩ := fut
  unfold drop
  cases result with
  | some result => exact Or.inl rfl
  | none =>
    cases wakerIndex with
    | none => exact Or.inl rfl
    | some i =>
      match sh.subs.lookup topic with
      | none => exact Or.inl rfl
      | some (.existing qos) => exact Or.inl rfl
      | some (.pending slots) =>
        refine Or.inr ⟨rfl, slots, i, rfl, rfl, ?_⟩
        simp only [assign]
        cases slots[i]? with
        | none => exact Or.inl ⟨rfl, rfl⟩
        | some slot => exact Or.inr ⟨slot, rfl, rfl⟩

end SubscribeFuture

/-! ## Sweeping the maps -/

def NotifyResult.waker : NotifyResult → Option Waker
  | .withWaker w => some w
  | _ => none

/-- An entry somebody still waits on. -/
def NotifyResult.isWaiting : NotifyResult → Bool
  | .failed => false
  | _ => true

theorem NotifyResult.isWaiting_of_ne {r : NotifyResult} (h : r ≠ .failed) :
    r.isWaiting = true := by
  cases r <;> first | rfl | exact absurd rfl h

/-- `fail_notify_map`: mark every entry as failed and collect the wakers. -/
def failNotifyMap (m : NotifierMap) (wakers : List Waker) : NotifierMap × List Waker :=
  (Table.mapVals (fun _ => .failed) m, wakers ++ m.entries.filterMap fun e => e.2.waker)

def SubscriptionState.isPending : SubscriptionState → Bool
  | .pending _ => true
  | .existing _ => false

/-- The wakers stored in a subscription state. -/
def SubscriptionState.wakers : SubscriptionState → List Waker
  | .pending slots => slots.filterMap Slot.waker
  | .existing _ => []

/-- The wakers that draining the map of subscriptions collects. -/
def drainedWakers (subs : LmcHashMap Str SubscriptionState) : List Waker :=
  subs.entries.flatMap fun e => e.2.wakers

theorem mem_failNotifyMap {m : NotifierMap} {wakers : List Waker} {w : Waker} :
    w ∈ (failNotifyMap m wakers).2 ↔ w ∈ wakers ∨ ∃ id, m.lookup id = some (.withWaker w) := by
  rw [failNotifyMap, List.mem_append, List.mem_filterMap]
  refine or_congr_right ⟨?_, ?_⟩
  · rintro ⟨⟨id, r⟩, hmem, hw⟩
    have hr : r = .withWaker w := by
      cases r <;> cases hw
      rfl
    exact ⟨id, hr ▸ AList.mem_lookup_iff.mpr hmem⟩
  · rintro ⟨id, hlookup⟩
    exact ⟨⟨id, .withWaker w⟩, AList.mem_lookup_iff.mp hlookup, rfl⟩

theorem mem_drainedWakers {subs : LmcHashMap Str SubscriptionState} {w : Waker} :
    w ∈ drainedWakers subs ↔
      ∃ topic, w ∈ (subs.lookup topic).elim [] SubscriptionState.wakers := by
  rw [drainedWakers, List.mem_flatMap]
  constructor
  · rintro ⟨⟨topic, state⟩, hmem, hw⟩
    have hlookup : subs.lookup topic = some state := AList.mem_lookup_iff.mpr hmem
    exact ⟨topic, by rwa [hlookup]⟩
  · rintro ⟨topic, hw⟩
    cases hlookup : subs.lookup topic with
    | none =>
      rw [hlookup] at hw
      cases hw
    | some state =>
      rw [hlookup] at hw
      exact ⟨⟨topic, state⟩, AList.mem_lookup_iff.mp hlookup, hw⟩

/-! ## Commands -/

structure PublishCommand where
  packetId : UInt16
  qos : QoS
  packet : Packet
deriving DecidableEq, Repr

structure SubscribeCommand where
  topic : Str
  qos : QoS
  kind : SubscriptionKind
deriving DecidableEq, Repr

inductive UnsubKind where
  | fastCallback (id : UInt32)
  | immediate
deriving DecidableEq, Repr

structure UnsubCommand where
  topic : Str
  kind : UnsubKind
deriving DecidableEq, Repr

inductive Command where
  | publish (cmd : PublishCommand)
  | subscribe (cmd : SubscribeCommand)
  | unsub (cmd : UnsubCommand)
  | disconnect
deriving DecidableEq, Repr

end Lmc
