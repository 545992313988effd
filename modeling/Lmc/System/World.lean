import Lmc.System.Agreement
import Lmc.System.Wanted
import Mathlib.Data.Finset.Basic

/-!
# The client and its broker

A broker is added to the system: it reads the packets of the client in the order in which
they are on the wire, adds a topic with each `SUBSCRIBE`, removes it with each
`UNSUBSCRIBE`, and its acknowledgements arrive in order. In a world at rest, where nothing is
on its way and nothing waits for an acknowledgement, both sides should have the same topics.

What the broker has is decided by the last packet about a topic (`Follows`), and the task
sends last what it wants as long as its steps keep track of the topics. Under this condition
the two sides agree (`broker_agrees`). An `UNSUBSCRIBE` that the alarm sends again after the
topic was requested anew breaks it (`broker_forgets_topic`).
-/

namespace Lmc

open Runs

/-! ## The broker -/

/-- An acknowledgement on its way to the client. -/
inductive Ack where
  | sub (id : UInt16) (granted : QoS)
  | unsub (id : UInt16)
deriving DecidableEq, Repr

/-- The packet is the acknowledgement. -/
def Ack.arrivesAs : Ack → IncomingPacket → Bool
  | .sub id granted, .subAck ack => ack.packetId == id && ack.subResults == [.ok granted]
  | .unsub id, .unsubAck ack => ack.packetId == id
  | _, _ => false

structure Broker where
  /-- The number of packets it has read. -/
  read : Nat
  topics : Finset Str
  /-- What it has sent and has not arrived, the oldest first. -/
  acks : List Ack
deriving DecidableEq

namespace Broker

/-- The broker reads a packet. It grants the quality of service that it likes. -/
def receive (granted : QoS) (asked : Asked) (b : Broker) : Broker :=
  match asked with
  | .subscribe id topic => ⟨b.read + 1, insert topic b.topics, b.acks ++ [.sub id granted]⟩
  | .unsubscribe id topic => ⟨b.read + 1, b.topics.erase topic, b.acks ++ [.unsub id]⟩
  | _ => ⟨b.read + 1, b.topics, b.acks⟩

/-- A packet arrives at the client. Nobody but the broker acknowledges something. -/
def deliver (pkt : IncomingPacket) (b : Broker) : Option Broker :=
  match pkt, b.acks with
  | .subAck _, ack :: rest | .unsubAck _, ack :: rest =>
    if ack.arrivesAs pkt then some { b with acks := rest } else none
  | .subAck _, [] | .unsubAck _, [] => none
  | _, _ => some b

theorem deliver_some {pkt : IncomingPacket} {b b' : Broker} (h : b.deliver pkt = some b') :
    b'.read = b.read ∧ b'.topics = b.topics ∧ ∀ ack, pkt = .subAck ack → ack.accepting := by
  unfold deliver at h
  split at h
  · rename_i ack pending rest hacks
    split at h
    · rename_i harrives
      cases h
      refine ⟨rfl, rfl, ?_⟩
      rintro _ ⟨⟩
      cases pending with
      | sub id granted =>
        simp only [Ack.arrivesAs, Bool.and_eq_true, beq_iff_eq] at harrives
        exact ⟨granted, harrives.2⟩
      | unsub id => cases harrives
    · cases h
  · split at h
    · cases h
      exact ⟨rfl, rfl, nofun⟩
    · cases h
  · cases h
  · cases h
  · rename_i hsub hunsub hsub' hunsub'
    cases h
    refine ⟨rfl, rfl, ?_⟩
    rintro ack rfl
    cases hacks : b.acks with
    | nil => exact absurd hacks (hsub' ack rfl)
    | cons pending rest => exact absurd hacks (hsub ack pending rest rfl)

end Broker

structure World (τ : Type) where
  system : System τ
  broker : Broker

namespace World

inductive Event where
  | system (e : Lmc.Event)
  /-- The broker reads the next packet. -/
  | broker (granted : QoS)

variable {τ : Type} [Transport τ]

def step (w : World τ) : Event → Option (World τ)
  | .system (.client e) => (w.system.step (.client e)).map fun s => { w with system := s }
  | .system (.task e) => do
    let s ← w.system.step (.task e)
    match w.system.arriving e with
    | some pkt => (w.broker.deliver pkt).map (⟨s, ·⟩)
    | none => some { w with system := s }
  | .broker granted => (w.system.received[w.broker.read]?).map fun p =>
    { w with broker := w.broker.receive granted p.asks }

/-- The client is about to connect. -/
def start (setup : Setup τ) : World τ := ⟨System.spawn setup, ⟨0, ∅, []⟩⟩

/-- The condition on the steps of the client. -/
def keepsTopics (w : World τ) : Event → Bool
  | .system e => w.system.keepsTopics e
  | .broker _ => true

/-- No packet is on its way, in one direction or the other, and no request is pending. -/
structure AtRest (w : World τ) : Prop where
  read : w.broker.read = w.system.tx.link.handed.length
  acks : w.broker.acks = []
  subs : ∀ id, w.system.tx.pendingSubs.lookup id = none
  unsubs : ∀ id, w.system.tx.pendingPackets.lookup (.unsubscribe id) = none

/-! ## Agreement -/

/-- The broker has the topics that the packets it has read leave subscribed. -/
structure Follows (b : Broker) (handed : List InternalPacket) : Prop where
  read : b.read ≤ handed.length
  topics : ∀ topic, topic ∈ b.topics ↔ turned topic (handed.take b.read) = true

theorem Follows.append {b : Broker} {handed : List InternalPacket} (h : Follows b handed)
    (ps : List InternalPacket) : Follows b (handed ++ ps) := by
  refine ⟨?_, fun topic => ?_⟩
  · rw [List.length_append]
    exact Nat.le_add_right_of_le h.read
  · rw [List.take_append_of_le_length h.read]
    exact h.topics topic

theorem Follows.receive {b : Broker} {handed : List InternalPacket} (h : Follows b handed)
    {p : InternalPacket} (hp : handed[b.read]? = some p) (granted : QoS) :
    Follows (b.receive granted p.asks) handed := by
  have hread : (b.receive granted p.asks).read = b.read + 1 := by
    unfold Broker.receive
    split <;> rfl
  obtain ⟨hlt, hget⟩ := List.getElem?_eq_some_iff.mp hp
  refine ⟨hread ▸ hlt, fun topic => ?_⟩
  rw [hread, List.take_add_one, hp, Option.toList_some, turned_concat]
  have htopics := h.topics topic
  unfold Broker.receive Asked.turns
  cases p.asks with
  | subscribe id t =>
    by_cases here : t = topic
    · simp [here]
    · simp [here, Ne.symm here, htopics]
  | unsubscribe id t =>
    by_cases here : t = topic
    · simp [here]
    · simp [here, Ne.symm here, htopics]
  | _ => simpa using htopics

/-- What holds of the two sides in every run under the condition. -/
structure Tracks (w : World τ) : Prop where
  speaks : w.system.Speaks
  follows : Follows w.broker w.system.tx.link.handed

variable {w w' : World τ}

theorem Tracks.system {s : System τ} {b : Broker} (h : Tracks w) {e : Lmc.Event}
    (hstep : w.system.step e = some s) (hkeeps : w.system.keepsTopics e = true)
    (haccepts : ∀ te ack, e = .task te → w.system.arriving te = some (.subAck ack) →
      ack.accepting) (hread : b.read = w.broker.read) (htopics : b.topics = w.broker.topics) :
    Tracks ⟨s, b⟩ := by
  obtain ⟨ps, hps⟩ := (System.onward_step hstep).handed
  refine ⟨h.speaks.step hstep hkeeps haccepts, ?_⟩
  have hfollows := h.follows.append ps
  rw [hps] at hfollows
  exact ⟨hread ▸ hfollows.read, by rw [hread, htopics]; exact hfollows.topics⟩

theorem Tracks.step (h : Tracks w) {e : Event} (hstep : w.step e = some w')
    (hkeeps : w.keepsTopics e = true) : Tracks w' := by
  match e with
  | .system (.client e) =>
    obtain ⟨s, hs, rfl⟩ := Option.map_eq_some_iff.mp hstep
    exact h.system hs hkeeps nofun rfl rfl
  | .system (.task e) =>
    obtain ⟨s, hs, hdeliver⟩ := Option.bind_eq_some_iff.mp hstep
    cases harrived : w.system.arriving e with
    | none =>
      simp only [harrived] at hdeliver
      cases hdeliver
      refine h.system hs hkeeps ?_ rfl rfl
      rintro _ ack ⟨⟩ hack
      cases harrived.symm.trans hack
    | some pkt =>
      simp only [harrived] at hdeliver
      obtain ⟨b, hb, rfl⟩ := Option.map_eq_some_iff.mp hdeliver
      obtain ⟨hread, htopics, haccepts⟩ := Broker.deliver_some hb
      refine h.system hs hkeeps ?_ hread htopics
      rintro _ ack ⟨⟩ hack
      exact haccepts ack (Option.some.inj (harrived.symm.trans hack))
  | .broker granted =>
    obtain ⟨p, hp, rfl⟩ := Option.map_eq_some_iff.mp hstep
    refine ⟨h.speaks, h.follows.receive ?_ granted⟩
    obtain ⟨rest, hrest⟩ : w.system.received <+: w.system.tx.link.handed := completed_initial _ _
    rw [← hrest, List.getElem?_append_left (List.getElem?_eq_some_iff.mp hp).1, hp]

/-- In every run in which the alarm sends no `UNSUBSCRIBE` of a topic that is subscribed or
requested again and no command loses track of a request: a world at rest has the same topics
on both sides. -/
theorem broker_agrees (setup : Setup τ) {connect : ConnectPacket}
    (hconnect : makePacket connect = .ok setup.connectPacket)
    (h : Reaches step (fun w e => keepsTopics w e = true) (start setup) w) (hrest : AtRest w)
    (topic : Str) : topic ∈ w.broker.topics ↔
      ∃ leaf, w.system.tx.subscriptions.get topic = .ok (some leaf) ∧ leaf.subscribed = true := by
  have htracks : Tracks w := by
    refine h.invariant ⟨System.speaks_spawn hconnect, Nat.le_refl 0, fun topic => ?_⟩ ?_
    · simp [start, turned]
    · exact fun w e w' hw hkeeps hstep => hw.step hstep hkeeps
  have hvoiced := htracks.speaks.voiced topic
  have hidle : w.system.tx.requests topic = false := Book.requests_of_empty hrest.subs topic
  rw [htracks.follows.topics topic, hrest.read, List.take_length,
    ← SubscriptionSet.isSubscribed_iff_get]
  show turned topic w.system.tx.desk.handed = true ↔ _
  rw [hvoiced, Book.wanted]
  show (_ || w.system.tx.requests topic) = true ↔ _
  rw [hidle, Bool.or_false]
  rfl

/-! ## Concrete runs -/

section Runs

open Lmc.System

/-- Nothing is on its way and nothing is pending. -/
def idle (w : World τ) : Bool :=
  w.broker.read == w.system.tx.link.handed.length && w.broker.acks == [] &&
    w.system.tx.pendingSubs.entries.isEmpty && w.system.tx.pendingPackets.entries.isEmpty

omit [Transport τ] in
theorem atRest_of_idle (h : w.idle = true) : AtRest w := by
  simp only [idle, Bool.and_eq_true, beq_iff_eq, List.isEmpty_iff] at h
  obtain ⟨⟨⟨hread, hacks⟩, hsubs⟩, hpackets⟩ := h
  refine ⟨hread, hacks, fun id => ?_, fun id => ?_⟩
  · rw [AList.lookup, hsubs]
    rfl
  · rw [AList.lookup, hpackets]
    rfl

/-- The events of the client, and then the broker reads some packets. -/
def scene (events : List Lmc.Event) (reads : Nat) : List Event :=
  events.map .system ++ List.replicate reads (.broker .atMostOnce)

def unsubscribing (c : Nat) : List Lmc.Event :=
  [.client (.unsubscribe c ['t']), .client (.send c), .task .command]

/-- A broker that accepts the connection and sends these packets. -/
def answering (delay : Nat) (acks : List ReadEvent) : Setup TcpTransport :=
  { scripted ⟨[acceptance, .wouldBlock] ++ acks ++ [.wouldBlock], false, []⟩ with
    connectPacket := ⟨0x10, [13, 0, 4, 0x4d, 0x51, 0x54, 0x54, 4, 2, 0, 30, 0, 1, 99]⟩
    packetResendDelay := delay }

def subAcked (id : UInt8) : ReadEvent := .data 0x90 [3, 0, id, 0]

def unsubAcked (id : UInt8) : ReadEvent := .data 0xb0 [2, 0, id]

/-- Each request is acknowledged after the alarm has sent it again. -/
def repeatingSetup : Setup TcpTransport :=
  answering 1 [subAcked 1, subAcked 1, .wouldBlock, unsubAcked 2, unsubAcked 2, .wouldBlock,
    subAcked 3]

/-- A topic is subscribed, unsubscribed and subscribed again. -/
theorem broker_agrees_repeating :
    ∃ w, Reaches step (fun w e => keepsTopics w e = true) (start repeatingSetup) w ∧ AtRest w ∧
      w.system.tx.link.handed.length = 6 ∧ ['t'] ∈ w.broker.topics ∧
      ∃ leaf, w.system.tx.subscriptions.get ['t'] = .ok (some leaf) ∧
        leaf.subscribed = true := by
  have hconnect : makePacket shortConnect = .ok repeatingSetup.connectPacket := by
    decide +kernel
  have hrun : (runUnder step (fun w e => keepsTopics w e = true) (start repeatingSetup)
      (scene (connecting ++ asking 0 ++ [.task .command, .task .alarm]) 3 ++
        scene (reading 3 ++ unsubscribing 1 ++ [.task .alarm]) 2 ++
        scene (reading 3 ++ asking 2 ++ [.task .command]) 1 ++ scene (reading 1) 0)).any
      (fun w => w.idle && w.system.tx.link.handed.length == 6 &&
        decide (['t'] ∈ w.broker.topics)) = true := by
    decide +kernel
  obtain ⟨w, hw, hp⟩ := exists_reaches _ hrun
  simp only [Bool.and_eq_true, beq_iff_eq, decide_eq_true_eq] at hp
  obtain ⟨⟨hidle, hlength⟩, hmem⟩ := hp
  have hrest := atRest_of_idle hidle
  exact ⟨w, hw, hrest, hlength, hmem,
    (broker_agrees repeatingSetup hconnect hw hrest ['t']).mp hmem⟩

/-- The `UNSUBACK` is late. -/
def lateSetup : Setup TcpTransport :=
  answering 6 [subAcked 1, .wouldBlock, unsubAcked 2, subAcked 3, unsubAcked 2]

/-- The topic is requested twice at once, and the second `SUBACK` is late. -/
def overtakingSetup : Setup TcpTransport :=
  answering 100 [subAcked 1, .wouldBlock, unsubAcked 2, subAcked 3, .wouldBlock, subAcked 4,
    unsubAcked 5]

/-- A topic is unsubscribed and subscribed again, and the alarm sends the `UNSUBSCRIBE` once
more behind the `SUBSCRIBE`. A topic is requested twice at once, and unsubscribed between the
two answers. A filter that the tree cannot hold is accepted by the broker. -/
theorem broker_forgets_topic :
    (∃ w leaf, Reaches step always (start lateSetup) w ∧ AtRest w ∧
      ['t'] ∉ w.broker.topics ∧
      w.system.tx.subscriptions.get ['t'] = .ok (some leaf) ∧ leaf.subscribed = true) ∧
    (∃ w leaf, Reaches step always (start overtakingSetup) w ∧ AtRest w ∧
      ['t'] ∉ w.broker.topics ∧
      w.system.tx.subscriptions.get ['t'] = .ok (some leaf) ∧ leaf.subscribed = true) ∧
    ∃ w, Reaches step always (start lateSetup) w ∧ AtRest w ∧ misplaced ∈ w.broker.topics ∧
      w.system.tx.subscriptions.get misplaced = .error () := by
  have hlate : (runUnder step always (start lateSetup)
      (scene (connecting ++ asking 0 ++ [.task .command]) 2 ++
        scene (reading 1 ++ unsubscribing 1 ++ [.task .alarm] ++ asking 2 ++
          [.task .command, .task .alarm]) 3 ++ scene (reading 5) 0)).any
      (fun w => w.idle && !decide (['t'] ∈ w.broker.topics) &&
        w.system.tx.subscriptions.isSubscribed ['t']) = true := by
    decide +kernel
  have hovertaken : (runUnder step always (start overtakingSetup)
      (scene (overtakenRun.take 10) 2 ++ scene (overtakenRun.drop 10) 3 ++
        scene (reading 3 ++ unsubscribing 4) 1 ++ scene (reading 3) 0)).any
      (fun w => w.idle && !decide (['t'] ∈ w.broker.topics) &&
        w.system.tx.subscriptions.isSubscribed ['t']) = true := by
    decide +kernel
  have hmisplaced : (runUnder step always (start lateSetup)
      (scene (connecting ++ [.client (.subscribe 0 misplaced .atMostOnce .void),
        .client (.build 0), .client (.send 0), .task .command]) 2 ++ scene (reading 1) 0)).any
      (fun w => w.idle && decide (misplaced ∈ w.broker.topics) &&
        w.system.tx.subscriptions.rejects misplaced) = true := by
    decide +kernel
  obtain ⟨w₁, hw₁, hp₁⟩ := exists_reaches _ hlate
  obtain ⟨w₂, hw₂, hp₂⟩ := exists_reaches _ hovertaken
  obtain ⟨w₃, hw₃, hp₃⟩ := exists_reaches _ hmisplaced
  simp only [Bool.and_eq_true, Bool.not_eq_true', decide_eq_false_iff_not,
    SubscriptionSet.isSubscribed_iff_get] at hp₁ hp₂
  simp only [Bool.and_eq_true, decide_eq_true_eq, SubscriptionSet.rejects_iff_get] at hp₃
  obtain ⟨⟨hidle₁, hgone₁⟩, leaf₁, hleaf₁⟩ := hp₁
  obtain ⟨⟨hidle₂, hgone₂⟩, leaf₂, hleaf₂⟩ := hp₂
  exact ⟨⟨w₁, leaf₁, hw₁, atRest_of_idle hidle₁, hgone₁, hleaf₁⟩,
    ⟨w₂, leaf₂, hw₂, atRest_of_idle hidle₂, hgone₂, hleaf₂⟩,
    w₃, hw₃, atRest_of_idle hp₃.1.1, hp₃.1.2, hp₃.2⟩

end Runs

end World

end Lmc
