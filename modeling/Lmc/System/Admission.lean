import Lmc.System.Established
import Lmc.Wire.Encoding

/-!
# Commands that the task can process

A publish is encoded by the call that makes it. A subscribe and an unsubscribe are encoded
by the task, and a panic of the encoder there ends the task for all clones of the client.
The encoder panics if the topic does not fit into a field of 65535 bytes; nothing in front of
the task looks at that.

An unsubscribe is encoded only if its topic is subscribed, and then it was in a `SUBSCRIBE`
before (`Encodable`). So a subscribe command with a topic that is too long is the only one
that stops the task.
-/

namespace Lmc

open Runs

/-! ## Topics that fit -/

/-- The topic fits into a field with its length in front. -/
def fitsField (topic : Str) : Bool := decide (topic.asBytes.length ≤ 65535)

theorem fits_of_makeSubscribe {id : UInt16} {topic : Str} {qos : QoS} {pkt : Packet}
    (h : makePacket (⟨id, [(topic, qos)]⟩ : SubscribePacket) = .ok pkt) :
    fitsField topic = true := by
  obtain ⟨flags, content, hfill, -⟩ := makePacket_parts h
  exact decide_eq_true ((appends_subscribe id topic qos).fill hfill).1

theorem makeSubscribe_of_fits (id : UInt16) {topic : Str} (qos : QoS)
    (h : fitsField topic = true) :
    ∃ pkt, makePacket (⟨id, [(topic, qos)]⟩ : SubscribePacket) = .ok pkt := by
  have hlen : topic.asBytes.length ≤ 65535 := of_decide_eq_true h
  have hfits : SubscribePacket.Fits ⟨id, [(topic, qos)]⟩ := by
    rintro t ht
    rw [List.mem_singleton.mp ht]
    exact hlen
  have hsize : Encode.computeSize (⟨id, [(topic, qos)]⟩ : SubscribePacket) < maxContentSize := by
    show 2 + (2 + topic.asBytes.length + 1 + 0) < 2 ^ 28
    omega
  obtain ⟨size, -, hpkt⟩ := makePacket_of_writes (SubscribePacket.writes_encode hfits)
    (SubscribePacket.computeSize_eq _) (by decide) hsize
  exact ⟨_, hpkt⟩

theorem makeUnsubscribe_of_fits (id : UInt16) {topic : Str} (h : fitsField topic = true) :
    ∃ pkt, makePacket (⟨id, [topic]⟩ : UnsubscribePacket) = .ok pkt := by
  have hlen : topic.asBytes.length ≤ 65535 := of_decide_eq_true h
  have hfits : UnsubscribePacket.Fits ⟨id, [topic]⟩ := by
    rintro t ht
    rw [List.mem_singleton.mp ht]
    exact hlen
  have hsize : Encode.computeSize (⟨id, [topic]⟩ : UnsubscribePacket) < maxContentSize := by
    show 2 + (2 + topic.asBytes.length + 0) < 2 ^ 28
    omega
  obtain ⟨size, -, hpkt⟩ := makePacket_of_writes (UnsubscribePacket.writes_encode hfits)
    (UnsubscribePacket.computeSize_eq _) (by decide) hsize
  exact ⟨_, hpkt⟩

/-- The commands whose processing can end in a panic. -/
theorem CommandWork.panics {cmd : Command} {p : Panic} {d d' : Desk}
    (h : CommandWork cmd (some (.panic p)) d d') :
    (∃ sub q, cmd = .subscribe sub ∧ d.book.subscriptions.rejects sub.topic = false ∧
      makePacket (⟨d.book.shared.nextPacketId, [(sub.topic, sub.qos)]⟩ : SubscribePacket) =
        .error q) ∨
    ∃ topic q, cmd = .unsub ⟨topic, .immediate⟩ ∧
      d.book.subscriptions.isSubscribed topic = true ∧
      makePacket (⟨d.book.shared.nextPacketId, [topic]⟩ : UnsubscribePacket) = .error q := by
  cases h with
  | publishOnce _ _ io | publish _ _ _ io | unsubscribe _ _ _ _ io => cases io
  | subscribePanic sub q _ unsubscribed failed accepted =>
    exact Or.inl ⟨sub, q, rfl, accepted, failed⟩
  | unsubscribePanic topic q _ subscribed failed =>
    exact Or.inr ⟨topic, q, rfl, subscribed, failed⟩

namespace System

variable {τ : Type} [Transport τ] {s s' : System τ} {r : Registry}

/-! ## Topics that were encoded -/

/-- The topics that are pending or subscribed have been encoded. -/
structure Encodable (s : System τ) (r : Registry) : Prop where
  established : s.Established r
  pending : ∀ id sub, s.tx.pendingSubs.lookup id = some sub → fitsField sub.topic = true
  subscribed : ∀ topic, r.subscribed topic = true → fitsField topic = true

theorem Encodable.step (h : s.Encodable r) {e : Event} (hstep : s.step e = some s') :
    s'.Encodable (s.enrol e r) := by
  refine ⟨h.established.step hstep, fun id sub hp => ?_, fun topic htopic => ?_⟩
  · cases e with
    | client e =>
      rw [(clientMove_of_clientStep hstep).sameTask.pendingSubs] at hp
      exact h.pending id sub hp
    | task e =>
      rcases pendsSub_taskStep hstep hp with hold | ⟨cmd, -, -, htopic, -, hencoded, -⟩
      · exact h.pending id sub hold
      · rw [htopic]
        exact fits_of_makeSubscribe hencoded
  · cases e with
    | client e => exact h.subscribed topic htopic
    | task e =>
      rw [enrol] at htopic
      cases hop : s.treeOp e with
      | none =>
        rw [hop] at htopic
        exact h.subscribed topic htopic
      | some op =>
        rw [hop] at htopic
        rcases Registry.subscribed_of_apply htopic with hold | ⟨kind, rfl⟩
        · exact h.subscribed topic hold
        · cases causes_of_treeOp hop with
          | accept ack sub arrived found =>
            exact h.pending _ sub (Book.accepts_pending found)

theorem Encodable.exists_of_reaches {setup : Setup τ} {cond : System τ → Event → Prop}
    (hs : Reaches System.step cond (spawn setup) s) : ∃ r, s.Encodable r := by
  refine hs.invariant (I := fun s => ∃ r, s.Encodable r)
    ⟨_, .empty setup, fun _ _ h => (by cases h), fun _ h => (by cases h)⟩ ?_
  rintro s e s' ⟨r, hr⟩ - hstep
  exact ⟨_, hr.step hstep⟩

/-! ## Processing a command -/

/-- The command is not a subscribe command with a topic that is too long. One whose filter
is rejected is not encoded. -/
def admissible (s : System τ) : Command → Bool
  | .subscribe cmd => fitsField cmd.topic || s.tx.subscriptions.rejects cmd.topic
  | _ => true

/-- In every state that is reached, the task processes an admissible command without a
panic. -/
theorem command_never_panics {setup : Setup τ} {e : TaskEvent} {cmd : Command}
    (hs : Reaches System.step always (spawn setup) s) (htaken : s.consumed e = some cmd)
    (hstep : s.step (.task e) = some s') (hadmissible : s.admissible cmd = true) :
    ∀ p, s.outcome e ≠ some (.panic p) := by
  obtain ⟨r, hr⟩ := Encodable.exists_of_reaches hs
  obtain ⟨-, rest, -, hwork⟩ := commandWork_of_consumed hstep htaken
  intro p hpanic
  rw [hpanic] at hwork
  rcases hwork.panics with ⟨sub, q, rfl, haccepted, hfailed⟩ | ⟨topic, q, rfl, hsub, hfailed⟩
  · have hfits : fitsField sub.topic = true :=
      (Bool.or_eq_true_iff.mp hadmissible).resolve_right fun hrejects => by
        cases haccepted.symm.trans hrejects
    obtain ⟨pkt, hpkt⟩ := makeSubscribe_of_fits s.tx.shared.nextPacketId sub.qos hfits
    cases hpkt.symm.trans hfailed
  · have hfits := hr.subscribed topic ((hr.established.isSubscribed topic).trans hsub)
    obtain ⟨pkt, hpkt⟩ := makeUnsubscribe_of_fits s.tx.shared.nextPacketId hfits
    cases hpkt.symm.trans hfailed

/-- Every other command stops the task, also one with an invalid filter that `get` accepts. -/
theorem panics_of_long {setup : Setup τ} {e : TaskEvent} {cmd : Command}
    (hs : Reaches System.step always (spawn setup) s) (htaken : s.consumed e = some cmd)
    (hstep : s.step (.task e) = some s') (hlong : s.admissible cmd = false) :
    ∃ q, s.outcome e = some (.panic (.encoder q)) := by
  cases cmd with
  | subscribe cmd =>
    simp only [admissible, Bool.or_eq_false_iff] at hlong
    obtain ⟨r, hr⟩ := Encodable.exists_of_reaches hs
    obtain ⟨-, rest, -, hwork⟩ := commandWork_of_consumed hstep htaken
    generalize s.outcome e = o at hwork ⊢
    generalize s'.tx.desk = d at hwork
    cases hwork with
    | reject _ _ rejects => cases hlong.2.symm.trans rejects
    | add _ _ subscribed =>
      -- a topic that is subscribed was encoded before
      have hfits := hr.subscribed _ ((hr.established.isSubscribed _).trans subscribed)
      cases hlong.1.symm.trans hfits
    | subscribePanic _ q => exact ⟨q, rfl⟩
    | subscribe _ _ _ _ _ _ encoded | subscribeCut _ _ _ _ _ _ encoded =>
      cases hlong.1.symm.trans (fits_of_makeSubscribe encoded)
  | _ => cases hlong

/-- A topic of this many letters. -/
def longTopic (n : Nat) : Str := List.replicate n 'a'

theorem fitsField_longTopic (n : Nat) : fitsField (longTopic n) = decide (n ≤ 65535) := by
  have hlen : (Str.asBytes (longTopic n)).length = n := by
    rw [Str.asBytes, List.length_flatMap, longTopic, List.map_replicate, List.sum_replicate_nat]
    exact Nat.mul_one n
  rw [fitsField, hlen]

theorem levels_longTopic (n : Nat) : levels (longTopic n) = [longTopic n] := by
  induction n with
  | zero => rfl
  | succ n ih =>
    show levels ('a' :: longTopic n) = _
    rw [levels_cons, if_neg (by decide), ih]
    rfl

theorem validFilter_longTopic (n : Nat) : validFilter (longTopic n) = true := by
  rw [validFilter, levels_longTopic]
  rfl

/-- A client subscribes to a topic. -/
def admissionRun (topic : Str) : List Event :=
  connecting ++ [.client (.subscribe 0 topic .atMostOnce .void), .client (.build 0),
    .client (.send 0)]

/-- The command gets to the task, whatever its topic is. -/
theorem admitted (topic : Str) : ∃ s s', Reaches System.step always
      (spawn (silentSetup false)) s ∧
    s.consumed .command = some (.subscribe ⟨topic, .atMostOnce, .void⟩) ∧
    s.step (.task .command) = some s' ∧
    s.tx.subscriptions = default := by
  have hrun : (runUnder System.step always (spawn (silentSetup false)) (admissionRun topic)).map
      (fun s => (s.consumed .command, (s.step (.task .command)).isSome, s.tx.subscriptions)) =
        some (some (.subscribe ⟨topic, .atMostOnce, .void⟩), true, default) := by
    rfl
  obtain ⟨s, hs, hp⟩ := Option.map_eq_some_iff.mp hrun
  simp only [Prod.mk.injEq, Option.isSome_iff_exists] at hp
  obtain ⟨htaken, ⟨s', hstep⟩, hset⟩ := hp
  exact ⟨s, s', reaches_of_runUnder hs, htaken, hstep, hset⟩

theorem command_never_panics_longest : ∃ s s', Reaches System.step always
      (spawn (silentSetup false)) s ∧
    s.consumed .command = some (.subscribe ⟨longTopic 65535, .atMostOnce, .void⟩) ∧
    s.step (.task .command) = some s' ∧ ∀ p, s.outcome .command ≠ some (.panic p) := by
  obtain ⟨s, s', hs, htaken, hstep, -⟩ := admitted (longTopic 65535)
  have hadmissible : s.admissible (.subscribe ⟨longTopic 65535, .atMostOnce, .void⟩) = true := by
    rw [admissible, fitsField_longTopic]
    rfl
  exact ⟨s, s', hs, htaken, hstep, command_never_panics hs htaken hstep hadmissible⟩

/-- A client subscribes to a topic of 65536 bytes. The command gets to the task, and the
encoder panics there. -/
theorem long_subscribe_panics : ∃ s s' q, Reaches System.step always
      (spawn (silentSetup false)) s ∧ s.tx.connectSig = false ∧
    s.consumed .command = some (.subscribe ⟨longTopic 65536, .atMostOnce, .void⟩) ∧
    s.step (.task .command) = some s' ∧ s.outcome .command = some (.panic (.encoder q)) := by
  obtain ⟨s, s', hs, htaken, hstep, hset⟩ := admitted (longTopic 65536)
  have hlong : s.admissible (.subscribe ⟨longTopic 65536, .atMostOnce, .void⟩) = false := by
    rw [admissible, fitsField_longTopic, hset,
      SubscriptionSet.rejects_of_valid (validFilter_longTopic 65536)]
    rfl
  obtain ⟨q, hpanic⟩ := panics_of_long hs htaken hstep hlong
  exact ⟨s, s', q, hs, (commandWork_of_consumed hstep htaken).1, htaken, hstep, hpanic⟩

end System

end Lmc
