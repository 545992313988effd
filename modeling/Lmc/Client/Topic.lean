import Mathlib.Tactic.Common

/-!
# The life of a topic

`Topic` is what matters about one topic for its subscription: where it stands in the map
that clients see, how many `Subscribe` commands for it are on their way to the task, how
many `SUBSCRIBE` packets for it are not answered, and two facts about the tree of the
task. `Step` lists what can happen to it.

`Single` says that a topic is requested at most once at a time, and only while it is
pending. It breaks when an `Unsub` is consumed while a `Subscribe` is on its way that was
sent because the topic existed. `Agrees` says that the map and the tree tell the same
about the topic. `Resolvable` says that something is on its way for every
pending topic, so that somebody will resolve it. The steps that may break it carry a label.
-/

namespace Lmc

/-- Where a topic stands in the map of subscription states. -/
inductive Standing where
  | absent
  | pending
  | existing
deriving DecidableEq, Repr

structure Topic where
  standing : Standing
  /-- The `Subscribe` commands that are queued or about to be queued. -/
  asked : Nat
  /-- The entries of `pending_subs`. -/
  requested : Nat
  /-- The leaf in the tree is subscribed. -/
  subscribed : Bool
  /-- The tree does not accept the topic. -/
  rejected : Bool

namespace Topic

/-! ## Steps -/

inductive Label where
  | silent
  /-- A command is lost before it is queued, or in a panic. -/
  | lose
  /-- A command is consumed without effect, because the topic is not accepted. -/
  | reject
  /-- A request is sent with an identifier that is still in use. -/
  | replace
  /-- A request is answered without a result. -/
  | void
  | refuse
  | forget

/-- Only the commands and requests change. A tree that has rejected a topic rejects it
for ever. -/
structure Frame (t t' : Topic) : Prop where
  standing : t'.standing = t.standing
  subscribed : t'.subscribed = t.subscribed
  rejected : t.rejected = true → t'.rejected = true

inductive Step (t t' : Topic) : Label → Prop
  | silent (frame : Frame t t') (asked : t'.asked = t.asked)
      (requested : t'.requested = t.requested) : Step t t' .silent
  /-- A call has seen that the topic exists. -/
  | ask (frame : Frame t t') (exist : t.standing = .existing) (asked : t'.asked = t.asked + 1)
      (requested : t'.requested = t.requested) : Step t t' .silent
  /-- A call makes the topic pending. -/
  | start (absent : t.standing = .absent) (pending : t'.standing = .pending)
      (asked : t'.asked = t.asked + 1) (requested : t'.requested = t.requested)
      (subscribed : t'.subscribed = t.subscribed) : Step t t' .silent
  | lose (frame : Frame t t') (asked : t'.asked ≤ t.asked)
      (requested : t'.requested = t.requested) : Step t t' .lose
  | reject (frame : Frame t t') (rejected : t.rejected = true) (asked : t.asked = t'.asked + 1)
      (requested : t'.requested = t.requested) : Step t t' .reject
  /-- A command finds the topic subscribed. -/
  | add (frame : Frame t t') (subscribed : t.subscribed = true) (asked : t.asked = t'.asked + 1)
      (requested : t'.requested = t.requested) : Step t t' .silent
  | request (frame : Frame t t') (subscribed : t.subscribed = false)
      (accepted : t.rejected = false) (asked : t.asked = t'.asked + 1)
      (requested : t'.requested = t.requested + 1) : Step t t' .silent
  | replace (frame : Frame t t') (asked : t'.asked ≤ t.asked)
      (requested : t'.requested ≤ t.requested) : Step t t' .replace
  | void (frame : Frame t t') (asked : t'.asked = t.asked)
      (requested : t.requested = t'.requested + 1) : Step t t' .void
  /-- A topic that is accepted by the broker may still be rejected by the tree. -/
  | accept (exist : t'.standing = .existing)
      (leaf : t'.subscribed = true ∨ t'.rejected = true) (asked : t'.asked = t.asked)
      (requested : t.requested = t'.requested + 1) : Step t t' .silent
  | refuse (absent : t'.standing = .absent) (subscribed : t'.subscribed = t.subscribed)
      (asked : t'.asked = t.asked) (requested : t.requested = t'.requested + 1) :
      Step t t' .refuse
  | forget (subscribed : t.subscribed = true) (absent : t'.standing = .absent)
      (cleared : t'.subscribed = false) (asked : t'.asked = t.asked)
      (requested : t'.requested = t.requested) : Step t t' .forget

variable {t t' : Topic} {l : Label}

/-! ## At most one request -/

structure Single (t : Topic) : Prop where
  existing : t.standing = .existing →
    t.requested = 0 ∧ (t.subscribed = true ∨ t.rejected = true)
  pending : t.standing = .pending → t.asked + t.requested ≤ 1
  absent : t.standing = .absent → t.asked + t.requested = 0
  leaf : t.subscribed = true → t.standing = .existing

theorem Single.pending_of_requested (h : Single t) (hpos : 0 < t.requested) :
    t.standing = .pending := by
  cases hs : t.standing with
  | pending => rfl
  | existing =>
    have hzero := (h.existing hs).1
    omega
  | absent =>
    have hzero := h.absent hs
    omega

theorem Single.requested_le_one (h : Single t) : t.requested ≤ 1 := by
  by_contra hlt
  have hle := h.pending (h.pending_of_requested (by omega))
  omega

theorem Single.of_existing (hs : t.standing = .existing) (hrequested : t.requested = 0)
    (hleaf : t.subscribed = true ∨ t.rejected = true) : Single t where
  existing _ := ⟨hrequested, hleaf⟩
  pending hp := by cases hs.symm.trans hp
  absent ha := by cases hs.symm.trans ha
  leaf _ := hs

theorem Single.of_pending (hs : t.standing = .pending) (hle : t.asked + t.requested ≤ 1)
    (hleaf : t.subscribed = false) : Single t where
  existing he := by cases hs.symm.trans he
  pending _ := hle
  absent ha := by cases hs.symm.trans ha
  leaf htrue := by cases hleaf.symm.trans htrue

theorem Single.of_absent (hs : t.standing = .absent) (hzero : t.asked + t.requested = 0)
    (hleaf : t.subscribed = false) : Single t where
  existing he := by cases hs.symm.trans he
  pending hp := by cases hs.symm.trans hp
  absent _ := hzero
  leaf htrue := by cases hleaf.symm.trans htrue

theorem Single.unsubscribed (h : Single t) (hs : t.standing ≠ .existing) :
    t.subscribed = false := by
  rw [← Bool.not_eq_true]
  exact fun htrue => hs (h.leaf htrue)

/-- Nothing new is on its way. -/
theorem Single.frame (h : Single t) (frame : Frame t t') (hasked : t'.asked ≤ t.asked)
    (hrequested : t'.requested ≤ t.requested) : Single t' where
  existing hs := by
    obtain ⟨hzero, hleaf⟩ := h.existing (frame.standing ▸ hs)
    refine ⟨by omega, ?_⟩
    rw [frame.subscribed]
    exact hleaf.imp_right frame.rejected
  pending hs := by
    have hle := h.pending (frame.standing ▸ hs)
    omega
  absent hs := by
    have hzero := h.absent (frame.standing ▸ hs)
    omega
  leaf hs := by
    rw [frame.standing]
    exact h.leaf (frame.subscribed ▸ hs)

/-- A request is sent only for a pending topic: somebody has asked for it, and if it
existed its leaf would serve it. -/
theorem Single.pending_of_asked (h : Single t) (hasked : 0 < t.asked)
    (hsubscribed : t.subscribed = false) (haccepted : t.rejected = false) :
    t.standing = .pending := by
  cases hs : t.standing with
  | pending => rfl
  | existing =>
    rcases (h.existing hs).2 with hleaf | hleaf
    · cases hsubscribed.symm.trans hleaf
    · cases haccepted.symm.trans hleaf
  | absent =>
    have hzero := h.absent hs
    omega

theorem Single.step (h : Single t) (hstep : Step t t' l)
    (hforget : l = .forget → t.asked = 0) : Single t' := by
  cases hstep with
  | silent frame asked requested => exact h.frame frame (by omega) (by omega)
  | lose frame asked requested => exact h.frame frame asked (by omega)
  | reject frame rejected asked requested => exact h.frame frame (by omega) (by omega)
  | add frame subscribed asked requested => exact h.frame frame (by omega) (by omega)
  | replace frame asked requested => exact h.frame frame asked requested
  | void frame asked requested => exact h.frame frame (by omega) (by omega)
  | ask frame exist asked requested =>
    obtain ⟨hzero, hleaf⟩ := h.existing exist
    refine .of_existing (frame.standing.trans exist) (by omega) ?_
    rw [frame.subscribed]
    exact hleaf.imp_right frame.rejected
  | start absent pending asked requested subscribed =>
    have hzero := h.absent absent
    refine .of_pending pending (by omega) (subscribed.trans (h.unsubscribed ?_))
    rw [absent]
    exact Standing.noConfusion
  | request frame subscribed accepted asked requested =>
    have hs := h.pending_of_asked (by omega) subscribed accepted
    have hle := h.pending hs
    exact .of_pending (frame.standing.trans hs) (by omega) (frame.subscribed.trans subscribed)
  | accept exist leaf asked requested =>
    have hle := h.pending (h.pending_of_requested (by omega))
    exact .of_existing exist (by omega) leaf
  | refuse absent subscribed asked requested =>
    have hs := h.pending_of_requested (by omega)
    have hle := h.pending hs
    refine .of_absent absent (by omega) (subscribed.trans (h.unsubscribed ?_))
    rw [hs]
    exact Standing.noConfusion
  | forget subscribed absent cleared asked requested =>
    have hzero := (h.existing (h.leaf subscribed)).1
    have hasked := hforget rfl
    exact .of_absent absent (by omega) cleared

/-! ## The map and the tree -/

/-- The topic exists for the clients if and only if it is subscribed in the tree. -/
def Agrees (t : Topic) : Prop := t.standing = .existing ↔ t.subscribed = true

theorem Agrees.frame (h : Agrees t) (frame : Frame t t') : Agrees t' := by
  rw [Agrees, frame.standing, frame.subscribed]
  exact h

theorem Agrees.of_absent (hs : t.standing ≠ .existing) (hleaf : t.subscribed = false) :
    Agrees t := by
  refine ⟨fun he => absurd he hs, fun htrue => ?_⟩
  cases hleaf.symm.trans htrue

theorem Agrees.step (h : Agrees t) (hstep : Step t t' l) (haccept : t'.rejected = false)
    (hrefuse : l = .refuse → t.subscribed = false) : Agrees t' := by
  cases hstep with
  | silent frame => exact h.frame frame
  | ask frame => exact h.frame frame
  | lose frame => exact h.frame frame
  | reject frame => exact h.frame frame
  | add frame => exact h.frame frame
  | request frame => exact h.frame frame
  | replace frame => exact h.frame frame
  | void frame => exact h.frame frame
  | start absent pending asked requested subscribed =>
    refine .of_absent (by simp [pending]) ?_
    rw [subscribed, ← Bool.not_eq_true]
    intro htrue
    cases absent.symm.trans (h.mpr htrue)
  | accept exist leaf asked requested =>
    refine ⟨fun _ => ?_, fun _ => exist⟩
    rcases leaf with hleaf | hleaf
    · exact hleaf
    · cases haccept.symm.trans hleaf
  | refuse absent subscribed asked requested =>
    exact .of_absent (by simp [absent]) (subscribed.trans (hrefuse rfl))
  | forget subscribed absent cleared asked requested =>
    exact .of_absent (by simp [absent]) cleared

/-! ## Something on its way -/

structure Resolvable (t : Topic) : Prop where
  pending : t.standing = .pending → 0 < t.asked + t.requested
  leaf : t.subscribed = true → t.standing = .existing

/-- As much is on its way as before. -/
theorem Resolvable.frame (h : Resolvable t) (frame : Frame t t')
    (hle : t.standing = .pending → t.asked + t.requested ≤ t'.asked + t'.requested) :
    Resolvable t' where
  pending hs := by
    have hpending := frame.standing ▸ hs
    exact Nat.lt_of_lt_of_le (h.pending hpending) (hle hpending)
  leaf hs := by
    rw [frame.standing]
    exact h.leaf (frame.subscribed ▸ hs)

theorem Resolvable.step (h : Resolvable t) (hstep : Step t t' l)
    (hlose : l = .lose → t.standing ≠ .pending) (hreject : l = .reject → t.standing ≠ .pending)
    (hreplace : l ≠ .replace) (hvoid : l = .void → t.standing ≠ .pending)
    (hrefuse : l = .refuse → t.subscribed = false) : Resolvable t' := by
  cases hstep with
  | silent frame asked requested => exact h.frame frame fun _ => by omega
  | ask frame exist asked requested => exact h.frame frame fun _ => by omega
  | start absent pending asked requested subscribed =>
    refine ⟨fun _ => by omega, fun hs => ?_⟩
    cases absent.symm.trans (h.leaf (subscribed ▸ hs))
  | lose frame asked requested => exact h.frame frame fun hs => absurd hs (hlose rfl)
  | reject frame rejected asked requested =>
    exact h.frame frame fun hs => absurd hs (hreject rfl)
  | add frame subscribed asked requested =>
    refine h.frame frame fun hs => ?_
    cases hs.symm.trans (h.leaf subscribed)
  | request frame subscribed accepted asked requested => exact h.frame frame fun _ => by omega
  | replace frame asked requested => exact absurd rfl hreplace
  | void frame asked requested => exact h.frame frame fun hs => absurd hs (hvoid rfl)
  | accept exist leaf asked requested =>
    refine ⟨fun hp => ?_, fun _ => exist⟩
    cases exist.symm.trans hp
  | refuse absent subscribed asked requested =>
    refine ⟨fun hp => ?_, fun hs => ?_⟩
    · cases absent.symm.trans hp
    · cases (hrefuse rfl).symm.trans (subscribed.symm.trans hs)
  | forget subscribed absent cleared asked requested =>
    refine ⟨fun hp => ?_, fun hs => ?_⟩
    · cases absent.symm.trans hp
    · cases cleared.symm.trans hs

end Topic

end Lmc
