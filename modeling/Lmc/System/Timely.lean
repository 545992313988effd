import Lmc.System.Resends

/-!
# How early a packet is sent again

An acknowledgement removes a packet from the map and leaves its timeout in the queue. If the
next packet with the same key comes before that timeout has expired there are two timeouts for
the key, and the older one sends the new packet again too early (`resent_early`). In a run in
which no packet becomes pending under a key that still has a timeout, every key has at most one
timeout, and the alarm sends no packet again before `packet_resend_delay` has passed since it
became pending and since the alarm has last sent it (`retransmissions_not_early`).
-/

namespace Lmc

open EStateLogic

/-! ## Times of new timeouts -/

namespace Transceiver

variable {τ : Type}

/-- The timeouts that are added are not older than the next reading of the clock. -/
structure Stamped (tx tx' : Transceiver τ) : Prop where
  clock : tx'.link.clock = tx.link.clock
  nows : tx.link.nows ≤ tx'.link.nows
  stamps : Monotone tx.link.clock → ∀ x ∈ tx'.timeoutQueue, x ∈ tx.timeoutQueue ∨ tx.time ≤ x.t

theorem Stamped.same {tx tx' : Transceiver τ} (clock : tx'.link.clock = tx.link.clock)
    (nows : tx.link.nows ≤ tx'.link.nows) (queue : tx'.timeoutQueue ⊆ tx.timeoutQueue) :
    Stamped tx tx' := ⟨clock, nows, fun _ _ hx => Or.inl (queue hx)⟩

instance : Std.Refl (Stamped (τ := τ)) := ⟨fun _ => .same rfl le_rfl (List.Subset.refl _)⟩

instance : IsTrans (Transceiver τ) Stamped where
  trans a b c hab hbc :=
    { clock := hbc.clock.trans hab.clock
      nows := hab.nows.trans hbc.nows
      stamps := fun hmono x hx => by
        rcases hbc.stamps (hab.clock ▸ hmono) x hx with hold | hnew
        · exact hab.stamps hmono x hold
        · rw [time, hab.clock] at hnew
          exact Or.inr ((hmono hab.nows).trans hnew) }

theorem stamped_calm {α : Type} {x : LinkM τ α} (hx : Advances Link.Calm x) :
    Advances Stamped (onLink x) :=
  advances_zoom (fun _ _ hcalm => .same hcalm.clock hcalm.nows (List.Subset.refl _)) hx

theorem stamped_hand {α : Type} {x : LinkM τ α} {pkt : InternalPacket}
    (hx : Advances Link.Calm x) :
    Advances Stamped (onLink (do modify (Link.hand pkt); x)) := by
  refine fun tx => trans_of Stamped ?_ (stamped_calm hx { tx with link := tx.link.hand pkt })
  exact .same rfl le_rfl (List.Subset.refl _)

variable [Transport τ]

theorem stamped_driven : Driven (τ := τ) Stamped where
  onBook _ := .modify fun _ => .same rfl le_rfl (List.Subset.refl _)
  schedule id tx := by
    refine ⟨rfl, Nat.le_succ _, fun _ x hx => ?_⟩
    rcases List.mem_append.mp hx with hold | hnew
    · exact Or.inl hold
    · rw [List.mem_singleton.mp hnew]
      exact Or.inr le_rfl
  queue _ _ := stamped_hand <| .bind .get fun _ => .ite (Link.calm_sends.trySendPacket _ _)
    (.modify fun _ => .same rfl rfl rfl rfl)
  calm := stamped_calm
  send _ _ := stamped_hand (Link.calm_sends.trySendPacket _ _)
  recv tx := by
    rw [after_recvPacket]
    exact .same rfl le_rfl (List.Subset.refl _)
  popTimeout tx x rest hqueue := .same rfl le_rfl (hqueue ▸ List.subset_cons_self x rest)

end Transceiver

/-! ## Keys -/

namespace Book

/-- The key under which an answer to the packet becomes pending. -/
def answersUnder (b : Book) : IncomingPacket → Option IdType
  | .publish msg =>
    if msg.info.flags.qos = .exactlyOnce ∧
        (b.pendingPackets.lookup (.pubRec msg.info.packetId)).isNone
    then some (.pubRec msg.info.packetId) else none
  | .pubRec rec =>
    if (b.pendingPackets.lookup (.pubRel rec.packetId)).isNone
    then some (.pubRel rec.packetId) else none
  | _ => none

/-- The key under which the packet of the command becomes pending. -/
def keepsUnder (b : Book) : Command → Option IdType
  | .publish cmd => if cmd.qos = .atMostOnce then none else some (.publish cmd.packetId)
  | .subscribe cmd =>
    match makePacket (⟨b.shared.nextPacketId, [(cmd.topic, cmd.qos)]⟩ : SubscribePacket) with
    | .ok _ =>
      if b.subscriptions.rejects cmd.topic || b.subscriptions.isSubscribed cmd.topic then none
      else some (.subscribe b.shared.nextPacketId)
    | .error _ => none
  | .unsub ⟨topic, .immediate⟩ =>
    match makePacket (⟨b.shared.nextPacketId, [topic]⟩ : UnsubscribePacket) with
    | .ok _ =>
      if b.subscriptions.isSubscribed topic then some (.unsubscribe b.shared.nextPacketId)
      else none
    | .error _ => none
  | _ => none

end Book

namespace Desk

/-- The timeouts behind the change: one may have been added, for the key. -/
def Appends (d d' : Desk) (key : Option IdType) : Prop :=
  d'.timeouts = d.timeouts ∨ ∃ t id, key = some id ∧ d'.timeouts = d.timeouts ++ [⟨t, id⟩]

theorem appends_track (d : Desk) (t : Nat) (id : IdType) (pkt : Packet) :
    (d.track t id pkt).timeouts = d.timeouts ∨
      (d.track t id pkt).timeouts = d.timeouts ++ [⟨t, id⟩] := by
  unfold track
  split
  · exact Or.inl rfl
  · exact Or.inr rfl

theorem timeouts_conclude (cut : Option IoError) (f : Book → Book) (d : Desk) :
    (d.conclude cut f).timeouts = d.timeouts := by
  unfold conclude
  split <;> rfl

end Desk

theorem PacketWork.appends {pkt : IncomingPacket} {cut : Option IoError} {d d' : Desk}
    (h : PacketWork pkt cut d d') : d.Appends d' (d.book.answersUnder pkt) := by
  cases h with
  | record msg t _ _ qos new =>
    have hkey : d.book.answersUnder (.publish msg) = some (.pubRec msg.info.packetId) :=
      if_pos ⟨qos, by rw [new]; rfl⟩
    rw [Desk.Appends, hkey, Desk.timeouts_conclude]
    exact (d.appends_track t _ _).imp id fun h => ⟨t, _, rfl, h⟩
  | release rec t _ _ new =>
    have hkey : d.book.answersUnder (.pubRec rec) = some (.pubRel rec.packetId) :=
      if_pos (by rw [new]; rfl)
    rw [Desk.Appends, hkey, Desk.timeouts_conclude]
    exact (d.appends_track t _ _).imp id fun h => ⟨t, _, rfl, h⟩
  | answer msg _ _ qos => exact Or.inl (Desk.timeouts_conclude _ _ _)
  | releaseAgain rec pkt _ _ known => exact Or.inl (Desk.timeouts_conclude _ _ _)
  | _ => exact Or.inl rfl

theorem CommandWork.appends {cmd : Command} {o : Option Fault} {d d' : Desk}
    (h : CommandWork cmd o d d') : d.Appends d' (d.book.keepsUnder cmd) := by
  cases h with
  | publish cmd t _ io _ qos =>
    have hkey : d.book.keepsUnder (.publish cmd) = some (.publish cmd.packetId) := if_neg qos
    rw [Desk.Appends, hkey]
    exact (d.appends_track t _ _).imp id fun h => ⟨t, _, rfl, h⟩
  | subscribe cmd pkt t _ accepted unsubscribed encoded =>
    refine Or.inr ⟨t, _, ?_, rfl⟩
    simp only [Book.keepsUnder, encoded, accepted, unsubscribed]
    rfl
  | unsubscribe topic pkt t _ io _ subscribed encoded =>
    have hkey : d.book.keepsUnder (.unsub ⟨topic, .immediate⟩) =
        some (.unsubscribe d.book.shared.nextPacketId) := by
      simp only [Book.keepsUnder, encoded, if_pos subscribed]
    rw [Desk.Appends, hkey]
    exact (Desk.appends_track _ t _ _).imp id fun h => ⟨t, _, rfl, h⟩
  | _ => exact Or.inl rfl

namespace System

open Runs Transceiver

variable {τ : Type} [Transport τ] {s s' : System τ}

/-- The key under which a packet becomes pending in a step. -/
def begins (s : System τ) (e : TaskEvent) : Option IdType :=
  match s.arriving e with
  | some pkt => if s.tx.connectSig then none else s.tx.answersUnder pkt
  | none => (s.consumed e).bind s.tx.keepsUnder

theorem Work.appends {e : TaskEvent} {o : Option Fault} {d : Desk} (h : Work s e o d)
    (he : e ≠ .alarm) : s.tx.desk.Appends d (s.begins e) := by
  cases h with
  | idle same => exact Or.inl (congrArg Desk.timeouts same)
  | connect pkt boot waits handed => exact Or.inl (handed ▸ rfl)
  | connAck pkt arrived waiting book => exact Or.inl (book ▸ rfl)
  | packet pkt cut arrived connected ends work =>
    have hkey : s.begins e = s.tx.answersUnder pkt := by
      simp only [begins, arrived, connected]
      rfl
    have happ := work.appends
    rw [hkey]
    cases pkt <;> exact happ
  | command cmd rest queue taken connected work =>
    have hkey : s.begins e = s.tx.keepsUnder cmd := by
      cases harrived : s.arriving e with
      | some pkt => cases (not_consumed harrived).symm.trans taken
      | none =>
        simp only [begins, harrived, taken]
        rfl
    have happ := work.appends
    rw [hkey]
    cases cmd <;> exact happ
  | alarm cut ends work tick => exact absurd tick he
  | disconnect stopping connected handed => exact Or.inl (handed ▸ rfl)

/-- A step that is no tick of the alarm adds at most one timeout, for what becomes pending. -/
theorem appends_taskStep {e : TaskEvent} (hstep : s.taskStep e = some s') (he : e ≠ .alarm) :
    s.tx.desk.Appends s'.tx.desk (s.begins e) := by
  cases deskMove_of_taskStep hstep with
  | program tx p clean running leads work => exact work.appends he
  | _ => exact Or.inl rfl

/-! ## Runs with times -/

/-- A packet becomes pending under a key for which there is a timeout in the queue. -/
def reusesKey (s : System τ) : Event → Bool
  | .task e => (s.begins e).any fun id => s.tx.timeoutQueue.any fun x => x.packetId == id
  | .client _ => false

/-- The reading of the clock by which a step has made a packet pending under the key, or by
which the alarm has sent it again. -/
def stamp (s : System τ) (id : IdType) : Event → Option Nat
  | .task .alarm =>
    ((s.tx.tick.filterMap Round.refreshed).filter fun x => x.packetId = id).getLast?.map Timeout.t
  | .task e => if s.begins e = some id then some s.tx.time else none
  | .client _ => none

theorem begins_ne_of_not_reuses {e : TaskEvent} (h : s.reusesKey (.task e) = false) :
    ∀ x ∈ s.tx.timeoutQueue, s.begins e ≠ some x.packetId := by
  intro x hx hkey
  rw [reusesKey, hkey, Option.any_some, List.any_eq_false] at h
  exact h x hx (beq_self_eq_true _)

theorem stamp_of_ne {e : TaskEvent} (he : e ≠ .alarm) (id : IdType) :
    s.stamp id (.task e) = if s.begins e = some id then some s.tx.time else none := by
  cases e <;> first | rfl | exact absurd rfl he

end System

/-- The keys of the refreshed timeouts are among those of the timeouts taken. -/
theorem Round.keys_refreshed (rounds : List Round) :
    ((rounds.filterMap Round.refreshed).map Timeout.packetId).Sublist
      (rounds.map fun r => r.entry.packetId) := by
  induction rounds with
  | nil => exact .slnil
  | cons r rounds ih =>
    rw [Transceiver.filterMap_cons_toList, List.map_append, List.map_cons]
    unfold Round.refreshed
    cases r.resent with
    | none => exact ih.cons _
    | some x => exact ih.cons_cons _

/-- A system and, for each key, the reading of the clock by which the packet under it became
pending or was last sent again by the alarm, whichever is later. -/
structure Timed (τ : Type) where
  system : System τ
  since : IdType → Nat

namespace Timed

open Runs Transceiver Lmc.System

variable {τ : Type}

def start (setup : Setup τ) : Timed τ := ⟨spawn setup, fun _ => 0⟩

variable [Transport τ] {w w' : Timed τ}

def step (w : Timed τ) (e : Event) : Option (Timed τ) :=
  (w.system.step e).map fun s' => ⟨s', fun id => (w.system.stamp id e).getD (w.since id)⟩

/-- Every key has at most one timeout, which is not older than what is known about its packet. -/
structure Timely (w : Timed τ) : Prop where
  clock : Monotone w.system.tx.link.clock
  ordered : w.system.tx.Ordered
  keys : (w.system.tx.timeoutQueue.map Timeout.packetId).Nodup
  fresh : ∀ x ∈ w.system.tx.timeoutQueue, w.since x.packetId ≤ x.t

/-- Behind the loop the timeouts are those it has kept, with keys of their own, and some of the
refreshed ones, which have the times that are known of their packets. -/
theorem timely_of_swept {s : System τ} {since : IdType → Nat} (h : Timely ⟨s, since⟩)
    {tx₁ tx' : Transceiver τ} {kept back : List Timeout}
    (hswept : Swept tx₁ tx' s.tx.timeoutQueue [] kept back s.tx.tick) :
    ((kept ++ back).map Timeout.packetId).Nodup ∧
      ∀ x ∈ kept ++ back, (s.stamp x.packetId (.task .alarm)).getD (since x.packetId) ≤ x.t := by
  have hkeys : (kept.map Timeout.packetId ++
      s.tx.tick.map fun r => r.entry.packetId).Nodup := by
    have hall := h.keys
    rw [hswept.split, List.map_append, List.map_map] at hall
    exact List.nodup_append_comm.mp hall
  have hrefreshed : (kept.map Timeout.packetId ++
      (s.tx.tick.filterMap Round.refreshed).map Timeout.packetId).Nodup :=
    hkeys.sublist ((List.Sublist.refl _).append (Round.keys_refreshed _))
  obtain ⟨hkept, hback, hdisjoint⟩ := List.nodup_append.mp hrefreshed
  refine ⟨?_, fun x hx => ?_⟩
  · rw [List.map_append]
    exact hrefreshed.sublist ((List.Sublist.refl _).append (hswept.back.sublist.map _))
  · rw [stamp]
    cases hlast : ((s.tx.tick.filterMap Round.refreshed).filter
        fun y => y.packetId = x.packetId).getLast? with
    | none =>
      have hnot : x ∉ s.tx.tick.filterMap Round.refreshed := fun hmem =>
        List.filter_eq_nil_iff.mp (List.getLast?_eq_none_iff.mp hlast) x hmem (by simp)
      have hx' := (List.mem_append.mp hx).resolve_right fun hb => hnot (hswept.back.subset hb)
      refine h.fresh x ?_
      rw [hswept.split]
      exact List.mem_append_right _ hx'
    | some y =>
      obtain ⟨hy, hkey⟩ := List.mem_filter.mp (List.mem_of_getLast? hlast)
      have hkey : y.packetId = x.packetId := of_decide_eq_true hkey
      rcases List.mem_append.mp hx with hx' | hx'
      · exact absurd hkey.symm (hdisjoint _ (List.mem_map_of_mem hx') _ (List.mem_map_of_mem hy))
      · have heq : y = x := List.inj_on_of_nodup_map hback hy (hswept.back.subset hx') hkey
        rw [heq]
        exact le_rfl

theorem Timely.alarm {s s' : System τ} {since : IdType → Nat} (h : Timely ⟨s, since⟩)
    (hstep : s.taskStep .alarm = some s') :
    (s'.tx.timeoutQueue.map Timeout.packetId).Nodup ∧
      ∀ x ∈ s'.tx.timeoutQueue,
        (s.stamp x.packetId (.task .alarm)).getD (since x.packetId) ≤ x.t := by
  obtain ⟨-, htx⟩ := alarm_taskStep hstep
  rw [htx]
  -- a tick without rounds leaves the queue alone
  have hsame : ∀ tx : Transceiver τ, tx.timeoutQueue = s.tx.timeoutQueue → s.tx.tick = [] →
      (tx.timeoutQueue.map Timeout.packetId).Nodup ∧
        ∀ x ∈ tx.timeoutQueue,
          (s.stamp x.packetId (.task .alarm)).getD (since x.packetId) ≤ x.t := by
    intro tx hqueue htick
    rw [hqueue]
    refine ⟨h.keys, fun x hx => ?_⟩
    simp only [stamp, htick, List.filterMap_nil, List.filter_nil, List.getLast?_nil,
      Option.map_none]
    exact h.fresh x hx
  by_cases hconn : s.tx.connected = true
  · obtain ⟨ping, tx₁, hpinged, ⟨⟨e, herror⟩, htick⟩ | ⟨kept, back, tx', hswept, hend⟩⟩ :=
      run_onAlarm hconn
    · rw [after_of_error herror]
      exact hsame tx₁ hpinged.queue htick
    · have hafter : after onAlarm s.tx = tx' := by
        rcases hend with ⟨hok, -⟩ | ⟨e, herror⟩
        · exact after_of_ok hok
        · exact after_of_error herror
      rw [hafter, hswept.queue, List.nil_append]
      exact timely_of_swept h hswept
  · have hrun : (onAlarm : TaskM τ Unit).run s.tx = .ok () s.tx := by
      simp only [onAlarm, EStateM.run_bind, EStateM.run_get, if_neg hconn]
      rfl
    rw [after_of_ok hrun]
    exact hsame s.tx rfl (if_neg hconn)

theorem Timely.step {e : Event} (h : Timely w) (hok : w.system.reusesKey e = false)
    (hstep : w.step e = some w') : Timely w' := by
  obtain ⟨s, since⟩ := w
  obtain ⟨s', hs, rfl⟩ := Option.map_eq_some_iff.mp hstep
  have honward := onward_step hs
  suffices hqueue : (s'.tx.timeoutQueue.map Timeout.packetId).Nodup ∧
      ∀ x ∈ s'.tx.timeoutQueue, (s.stamp x.packetId e).getD (since x.packetId) ≤ x.t from
    ⟨honward.clock ▸ h.clock, honward.ordered h.clock h.ordered, hqueue.1, hqueue.2⟩
  cases e with
  | client e =>
    have hsame := (clientMove_of_clientStep hs).sameTask.timeoutQueue
    rw [hsame]
    exact ⟨h.keys, h.fresh⟩
  | task e =>
    by_cases he : e = .alarm
    · subst he
      exact h.alarm hs
    have hnew := begins_ne_of_not_reuses hok
    have hstamped : Stamped s.tx s'.tx := driven_step stamped_driven hs
      (fun _ _ _ _ => .same rfl le_rfl (List.Subset.refl _))
      fun _ _ => .same rfl le_rfl (List.Subset.refl _)
    have hold : ∀ x ∈ s.tx.timeoutQueue,
        (s.stamp x.packetId (.task e)).getD (since x.packetId) ≤ x.t := by
      intro x hx
      rw [stamp_of_ne he, if_neg (hnew x hx)]
      exact h.fresh x hx
    rcases appends_taskStep hs he with hqueue | ⟨t, id, hkey, hqueue⟩
    · change s'.tx.timeoutQueue = s.tx.timeoutQueue at hqueue
      rw [hqueue]
      exact ⟨h.keys, hold⟩
    · change s'.tx.timeoutQueue = s.tx.timeoutQueue ++ [⟨t, id⟩] at hqueue
      have hfresh : id ∉ s.tx.timeoutQueue.map Timeout.packetId := by
        intro hmem
        obtain ⟨x, hx, rfl⟩ := List.mem_map.mp hmem
        exact hnew x hx hkey
      refine ⟨?_, fun x hx => ?_⟩
      · rw [hqueue, List.map_append]
        refine List.nodup_append.mpr ⟨h.keys, List.nodup_singleton _, ?_⟩
        rintro a ha _ hb rfl
        rw [List.mem_singleton.mp hb] at ha
        exact hfresh ha
      · rcases hstamped.stamps h.clock x hx with hx' | htime
        · exact hold x hx'
        · rw [hqueue] at hx
          rcases List.mem_append.mp hx with hx' | hx'
          · exact hold x hx'
          · cases List.mem_singleton.mp hx'
            rw [stamp_of_ne he, if_pos hkey]
            exact htime

omit [Transport τ] in
theorem timely_start (setup : Setup τ) (hclock : Monotone setup.clock) :
    Timely (start setup) where
  clock := hclock
  ordered := ⟨.nil, nofun⟩
  keys := .nil
  fresh := nofun

/-- The rounds of a tick find timeouts of the queue, behind the next reading of the clock. -/
theorem tick_expired {tx : Transceiver τ} (hmono : Monotone tx.link.clock) :
    ∀ r ∈ tx.tick, r.entry ∈ tx.timeoutQueue ∧ tx.time ≤ r.checked ∧
      tx.packetResendDelay ≤ r.checked - r.entry.t := by
  intro r hr
  by_cases hconn : tx.connected = true
  · obtain ⟨ping, tx₁, hpinged, ⟨-, htick⟩ | ⟨kept, back, tx', hswept, -⟩⟩ := run_onAlarm hconn
    · rw [htick] at hr
      cases hr
    · obtain ⟨k, hk, -, hchecked⟩ := hswept.checked r hr
      refine ⟨?_, ?_, hpinged.delay ▸ hswept.expired r hr⟩
      · rw [hswept.split]
        exact List.mem_append_left _ (List.mem_map_of_mem hr)
      · rw [hchecked, hpinged.clock]
        exact hmono (hpinged.nows.trans hk)
  · rw [tick, if_neg hconn] at hr
    cases hr

/-- No early retransmission: in every run with a clock that does not go back in which no packet
becomes pending under a key that still has a timeout, the queue holds at most one timeout for a
key, and a tick sends a packet again only if `packet_resend_delay` has passed since it became
pending and since the alarm has last sent it. -/
theorem retransmissions_not_early (setup : Setup τ) (hclock : Monotone setup.clock)
    (h : Reaches Timed.step (fun w e => w.system.reusesKey e = false) (start setup) w) :
    (w.system.tx.timeoutQueue.map Timeout.packetId).Nodup ∧
    ∀ r ∈ w.system.tx.tick, ∀ p ∈ r.handed,
      w.since r.entry.packetId + setup.packetResendDelay ≤ r.checked := by
  have hinv : Timely w ∧ w.system.tx.packetResendDelay = setup.packetResendDelay := by
    refine h.invariant (I := fun w => Timely w ∧
      w.system.tx.packetResendDelay = setup.packetResendDelay) ⟨timely_start setup hclock, rfl⟩ ?_
    rintro w e w' ⟨hw, hdelay⟩ hok hstep
    refine ⟨hw.step hok hstep, ?_⟩
    obtain ⟨s', hs, rfl⟩ := Option.map_eq_some_iff.mp hstep
    have hfixes : Fixes Transceiver.packetResendDelay w.system.tx s'.tx :=
      driven_step (driven_fixes fun _ _ _ _ _ => rfl) hs (fun _ _ _ _ => rfl) fun _ _ => rfl
    exact hfixes.eq.trans hdelay
  obtain ⟨htimely, hdelay⟩ := hinv
  refine ⟨htimely.keys, fun r hr p _ => ?_⟩
  obtain ⟨hentry, htime, hexpired⟩ := tick_expired htimely.clock r hr
  have hsince := htimely.fresh r.entry hentry
  have hpast : r.entry.t ≤ r.checked := (htimely.ordered.past r.entry hentry).trans htime
  rw [hdelay] at hexpired
  omega

/-- A message with identifier 5. -/
def messageFive : ReadEvent := .data 0x34 [5, 0, 1, 0x74, 0, 5]

/-- The broker sends a message of quality 2 and waits. -/
def unreleasedSetup : Setup TcpTransport :=
  scripted ⟨[acceptance, .wouldBlock, messageFive, .wouldBlock], false, []⟩

theorem retransmissions_not_early_unreleased :
    ∃ w, Reaches Timed.step (fun w e => w.system.reusesKey e = false) (start unreleasedSetup) w ∧
      (∃ r ∈ w.system.tx.tick, r.handed.isSome = true) ∧
      (w.system.tx.timeoutQueue.map Timeout.packetId).Nodup ∧
      ∀ r ∈ w.system.tx.tick, ∀ p ∈ r.handed,
        w.since r.entry.packetId + unreleasedSetup.packetResendDelay ≤ r.checked := by
  have hrun : (runUnder Timed.step (fun w e => w.system.reusesKey e = false)
      (start unreleasedSetup) (connecting ++ reading 1)).any (fun w =>
        w.system.tx.tick.any fun r => r.handed.isSome) = true := by
    decide +kernel
  obtain ⟨w, hw, hp⟩ := exists_reaches _ hrun
  obtain ⟨r, hr, hsome⟩ := List.any_eq_true.mp hp
  have hmono : Monotone unreleasedSetup.clock := fun _ _ h => h
  exact ⟨w, hw, ⟨r, hr, hsome⟩, retransmissions_not_early unreleasedSetup hmono hw⟩

/-- The broker sends a message of quality 2, releases it, and uses its identifier again. -/
def reusingSetup : Setup TcpTransport :=
  { scripted ⟨[acceptance, .wouldBlock, messageFive, .data 0x62 [2, 0, 5], messageFive,
      .wouldBlock], false, []⟩ with
    packetResendDelay := 3 }

/-- The two timeouts of the key are in the queue, and the older one sends the `PUBREC` of the
second message again too early. -/
theorem resent_early :
    ∃ w, Reaches Timed.step always (start reusingSetup) w ∧
      (w.system.tx.pendingPacket (.pubRec 5)).isSome = true ∧
      w.system.tx.timeoutQueue.map Timeout.packetId = [.pubRec 5, .pubRec 5] ∧
      ∃ r ∈ w.system.tx.tick, r.handed.isSome = true ∧
        r.checked < w.since r.entry.packetId + reusingSetup.packetResendDelay := by
  have hrun : (runUnder Timed.step always (start reusingSetup) (connecting ++ reading 5)).any
      (fun w => (w.system.tx.pendingPacket (.pubRec 5)).isSome &&
        w.system.tx.timeoutQueue.map Timeout.packetId == [.pubRec 5, .pubRec 5] &&
        w.system.tx.tick.any fun r => r.handed.isSome &&
          decide (r.checked < w.since r.entry.packetId + reusingSetup.packetResendDelay)) =
        true := by
    decide +kernel
  obtain ⟨w, hw, hp⟩ := exists_reaches _ hrun
  simp only [Bool.and_eq_true, beq_iff_eq, List.any_eq_true, decide_eq_true_eq] at hp
  exact ⟨w, hw, hp.1.1, hp.1.2, hp.2⟩

end Timed

end Lmc
