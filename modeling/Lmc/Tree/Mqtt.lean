import Lmc.Tree.Registry

/-!
# Filters as a broker reads them

The broker gets the filter of a subscription as the string it is, and matches topics with
it by the rules of section 4.7 of MQTT 3.1.1. `mqttMatches` states these rules: `+` stands
for one level, a last `#` for any number of levels and also for none, and a wildcard in
front does not match a topic that starts with `$`.

The tree has rules of its own, `filterMatches`. On filters of plain levels with an optional
last `#` the two differ at two places, and only there: the tree does not match `P/#` with the
topic `P`, and it matches `#` with topics that start with `$` (`filterMatches_eq_mqtt_iff`).
A receiver that is registered under such a filter, and under no other, shows the difference.
-/

namespace Lmc

/-! ## The rules of the broker -/

def plusWildcard : Str := ['+']

/-- A filter matches a topic, both given by their levels. -/
def mqttLevelsMatch : List Str → List Str → Bool
  | [], [] => true
  | [], _ :: _ => false
  -- a last `#` also stands for no level at all
  | f :: fs, [] => f == recursiveWildcard && fs.isEmpty
  | f :: fs, t :: ts =>
    if f = recursiveWildcard then fs.isEmpty
    else (f == plusWildcard || f == t) && mqttLevelsMatch fs ts

/-- The filter starts with a wildcard. -/
def startsWild (filter : Str) : Bool :=
  (levels filter).head?.any fun l => l == plusWildcard || l == recursiveWildcard

/-- The topic is one of those that a broker keeps for itself. -/
def isReserved (topic : Str) : Bool := topic.head? == some '$'

def mqttMatches (filter topic : Str) : Bool :=
  !(startsWild filter && isReserved topic) && mqttLevelsMatch (levels filter) (levels topic)

/-! ## Plain filters with an optional `#` -/

def plainLevel (level : Str) : Bool :=
  level != plusWildcard && level != anyWildcard && level != recursiveWildcard

/-- Plain levels, and perhaps `#` behind them. -/
def hashLevels : List Str → Bool
  | [] => true
  | [last] => plainLevel last || last == recursiveWildcard
  | level :: next :: rest => plainLevel level && hashLevels (next :: rest)

def hashFilter (filter : Str) : Bool := hashLevels (levels filter)

theorem hashLevels_cons {l : Str} {ls : List Str} (h : hashLevels (l :: ls) = true) :
    (l = recursiveWildcard ∧ ls = []) ∨ (plainLevel l = true ∧ hashLevels ls = true) := by
  cases ls with
  | nil =>
    rw [hashLevels, Bool.or_eq_true, beq_iff_eq] at h
    exact h.symm.imp (fun h => ⟨h, rfl⟩) fun h => ⟨h, rfl⟩
  | cons next rest =>
    rw [hashLevels, Bool.and_eq_true] at h
    exact Or.inr h

/-- The tree and the broker agree, unless the topic ends where the `#` stands. -/
theorem levelsMatch_eq_mqtt {ls ts : List Str} (h : hashLevels ls = true) :
    levelsMatch ls ts = mqttLevelsMatch ls ts ∨ ls = ts ++ [recursiveWildcard] := by
  induction ls generalizing ts with
  | nil => cases ts <;> exact Or.inl rfl
  | cons l ls ih =>
    rcases hashLevels_cons h with ⟨rfl, rfl⟩ | ⟨hplain, hls⟩
    · cases ts with
      | nil => exact Or.inr rfl
      | cons t ts => exact Or.inl rfl
    · simp only [plainLevel, Bool.and_eq_true, bne_iff_ne, ne_eq] at hplain
      obtain ⟨⟨hplus, hany⟩, hhash⟩ := hplain
      cases ts with
      | nil =>
        have hno : levelsMatch (l :: ls) [] = false := rfl
        exact Or.inl (by rw [hno, mqttLevelsMatch, beq_false_of_ne hhash, Bool.false_and])
      | cons t ts =>
        rw [levelsMatch, mqttLevelsMatch, if_neg hhash, if_neg hhash, beq_false_of_ne hplus,
          beq_false_of_ne hany, Bool.false_or]
        by_cases hl : l = t
        · have hrest : levelsMatch ls ts = mqttLevelsMatch ls ts ∨
            ls = ts ++ [recursiveWildcard] := ih hls
          refine hrest.imp (fun heq => by rw [heq]) fun heq => ?_
          rw [hl, heq, List.cons_append]
        · refine Or.inl ?_
          rw [beq_false_of_ne hl, Bool.false_and, Bool.false_and]

theorem startsWild_of_hash {filter : Str} (h : hashFilter filter = true)
    (hwild : startsWild filter = true) : filter = recursiveWildcard := by
  apply levels_injective
  rw [startsWild] at hwild
  rw [hashFilter] at h
  cases hls : levels filter with
  | nil => exact absurd hls (levels_ne_nil filter)
  | cons l ls =>
    rw [hls] at h hwild
    rcases hashLevels_cons h with ⟨rfl, rfl⟩ | ⟨hplain, -⟩
    · rfl
    · simp only [plainLevel, Bool.and_eq_true, bne_iff_ne, ne_eq] at hplain
      simp [hplain.1.1, hplain.2] at hwild

/-- The tree and the broker disagree on this filter and this topic. -/
def departs (filter topic : Str) : Bool :=
  filter == topic ++ ['/', '#'] || (filter == recursiveWildcard && isReserved topic)

theorem filterMatches_eq_mqtt {filter topic : Str} (h : hashFilter filter = true)
    (hagree : departs filter topic = false) :
    filterMatches filter topic = mqttMatches filter topic := by
  rw [departs, Bool.or_eq_false_iff] at hagree
  have hfront : (startsWild filter && isReserved topic) = false := by
    cases hwild : startsWild filter with
    | false => rfl
    | true => simpa [startsWild_of_hash h hwild] using hagree.2
  rw [mqttMatches, hfront, Bool.not_false, Bool.true_and, filterMatches]
  refine (levelsMatch_eq_mqtt h).resolve_right fun heq => ?_
  have hparent : filter = topic ++ ['/', '#'] := by
    apply levels_injective
    rw [heq, levels_append]
    rfl
  simp [hparent] at hagree

/-- The topic ends where the `#` stands: the broker matches it, the tree does not. -/
theorem levelsMatch_parent {ts : List Str} (h : hashLevels (ts ++ [recursiveWildcard]) = true) :
    levelsMatch (ts ++ [recursiveWildcard]) ts = false ∧
      mqttLevelsMatch (ts ++ [recursiveWildcard]) ts = true := by
  induction ts with
  | nil => exact ⟨rfl, rfl⟩
  | cons t ts ih =>
    rcases hashLevels_cons h with ⟨-, hnil⟩ | ⟨hplain, hrest⟩
    · simp at hnil
    · simp only [plainLevel, Bool.and_eq_true, bne_iff_ne, ne_eq] at hplain
      rw [List.cons_append, levelsMatch, mqttLevelsMatch, if_neg hplain.2, if_neg hplain.2,
        (ih hrest).1, (ih hrest).2, beq_self_eq_true]
      simp

theorem filterMatches_ne_mqtt {filter topic : Str} (h : hashFilter filter = true)
    (hdeparts : departs filter topic = true) :
    filterMatches filter topic ≠ mqttMatches filter topic := by
  simp only [departs, Bool.or_eq_true, Bool.and_eq_true, beq_iff_eq] at hdeparts
  rcases hdeparts with rfl | ⟨rfl, hreserved⟩
  · -- `P/#` and `P`
    have hlevels : levels (topic ++ ['/', '#']) = levels topic ++ [recursiveWildcard] :=
      levels_append topic ['#']
    have hfront : startsWild (topic ++ ['/', '#']) = false := by
      refine Bool.eq_false_iff.mpr fun hwild => ?_
      have hlength := congrArg List.length (startsWild_of_hash h hwild)
      simp [recursiveWildcard] at hlength
    rw [hashFilter, hlevels] at h
    rw [filterMatches, mqttMatches, hfront, hlevels, (levelsMatch_parent h).1,
      (levelsMatch_parent h).2]
    nofun
  · -- `#` and a topic of the broker
    have htree : filterMatches recursiveWildcard topic = true := by
      rw [filterMatches]
      cases hls : levels topic with
      | nil => exact absurd hls (levels_ne_nil topic)
      | cons t ts => rfl
    have hfront : startsWild recursiveWildcard = true := by decide
    rw [htree, mqttMatches, hfront, hreserved]
    nofun

/-- The places where the tree and the broker disagree. -/
theorem filterMatches_eq_mqtt_iff {filter topic : Str} (h : hashFilter filter = true) :
    filterMatches filter topic = mqttMatches filter topic ↔ departs filter topic = false := by
  refine ⟨fun heq => ?_, filterMatches_eq_mqtt h⟩
  exact Bool.eq_false_iff.mpr fun hdeparts => filterMatches_ne_mqtt h hdeparts heq

/-! ## What the receivers show -/

/-- The two registrations have the same receiver. -/
def SubscriptionKind.shares : SubscriptionKind → SubscriptionKind → Bool
  | .fastCallback cb, .fastCallback cb' => cb == cb'
  | .lossy queue, .lossy queue' | .lossy queue, .unbounded queue'
  | .unbounded queue, .lossy queue' | .unbounded queue, .unbounded queue' => queue == queue'
  | _, _ => false

/-- The receiver of the registration, if it has one, has no registration of another filter or
kind. -/
structure Registry.Alone (r : Registry) (e : Str × SubscriptionKind) : Prop where
  receives : e.2 ≠ .void
  alone : ∀ e' ∈ r.entries, e.2.shares e'.2 = true → e' = e

theorem Registry.Alone.not_mem {r : Registry} {e e' : Str × SubscriptionKind} (h : r.Alone e)
    (hshares : e.2.shares e'.2 = true) (hne : e'.2 ≠ e.2) : e' ∉ r.entries := fun hmem =>
  hne (congrArg Prod.snd (h.alone e' hmem hshares))

/-- All registrations of the receiver are chosen, or none is. -/
theorem Registry.Alone.countP {r : Registry} {e : Str × SubscriptionKind} (h : r.Alone e)
    (chosen : Str → Bool) :
    (r.entries.countP fun e' => chosen e'.1 && e'.2 == e.2) =
      if chosen e.1 then r.entries.countP (·.2 == e.2) else 0 := by
  have hself : e.2.shares e.2 = true := by
    cases hkind : e.2 with
    | void => exact absurd hkind h.receives
    | _ => simp [SubscriptionKind.shares]
  have hsame : ∀ e' ∈ r.entries, (chosen e'.1 && e'.2 == e.2) = (chosen e.1 && e'.2 == e.2) := by
    intro e' hmem
    by_cases hkind : e'.2 = e.2
    · rw [h.alone e' hmem (hkind ▸ hself)]
    · rw [beq_false_of_ne hkind, Bool.and_false, Bool.and_false]
  rw [List.countP_congr fun e' hmem => by rw [hsame e' hmem]]
  cases chosen e.1 <;> simp

theorem Channel.tryOffer_roomy {c : Channel} (hopen : c.closed = false)
    (hroom : c.capacity = none) (n : Nat) (msg : IncomingPublishPacket) :
    c.tryOffer n msg = c.offer n msg := by
  induction n with
  | zero => rw [offer_zero]; rfl
  | succ n ih =>
    have hlast : c.tryOffer (n + 1) msg = (c.tryOffer n msg).tryPush msg :=
      Function.iterate_succ_apply' _ _ _
    rw [hlast, ih, offer, offer, hopen]
    simp [tryPush, hroom, List.replicate_succ']

theorem Channel.offer_injective {c : Channel} (hopen : c.closed = false) {m n : Nat}
    {msg : IncomingPublishPacket} (h : c.offer m msg = c.offer n msg) : m = n := by
  have hqueues := congrArg (fun c : Channel => c.queue.length) h
  simpa [offer, hopen] using hqueues

/-- A message that is handed out by two choices of filters to open queues with room: as many
registrations of a receiver are chosen by the one as by the other. -/
theorem Routed.counts {chosen chosen' : Str → Bool} {r : Registry} {msg : IncomingPublishPacket}
    {mail' : Mail} {e : Str × SubscriptionKind} (h : Routed chosen r msg sampleMail mail')
    (h' : Routed chosen' r msg sampleMail mail') (halone : r.Alone e) :
    (r.entries.countP fun e' => chosen e'.1 && e'.2 == e.2) =
      r.entries.countP fun e' => chosen' e'.1 && e'.2 == e.2 := by
  obtain ⟨filter, kind⟩ := e
  cases kind with
  | void => exact absurd rfl halone.receives
  | fastCallback cb =>
    obtain ⟨called, hcalls, hcount⟩ := h.calls
    obtain ⟨called', hcalls', hcount'⟩ := h'.calls
    have hmap : called.map (·, msg) = called'.map (·, msg) := hcalls.symm.trans hcalls'
    have hsame : called = called' :=
      List.map_injective_iff.mpr (fun _ _ hpair => congrArg Prod.fst hpair) hmap
    rw [← hcount cb, ← hcount' cb, hsame]
  | unbounded queue =>
    have hown : ∀ filter', (filter', SubscriptionKind.lossy queue) ∉ r.entries := fun _ =>
      halone.not_mem (beq_self_eq_true queue) nofun
    exact Channel.offer_injective rfl ((h.unbounded queue hown).symm.trans
      (h'.unbounded queue hown))
  | lossy queue =>
    have hown : ∀ filter', (filter', SubscriptionKind.unbounded queue) ∉ r.entries := fun _ =>
      halone.not_mem (beq_self_eq_true queue) nofun
    have hoffers := (h.lossy queue hown).symm.trans (h'.lossy queue hown)
    rw [Channel.tryOffer_roomy rfl rfl, Channel.tryOffer_roomy rfl rfl] at hoffers
    exact Channel.offer_injective rfl hoffers

/-- Then both choose the filter of a receiver that has no other. -/
theorem Routed.chosen_eq {chosen chosen' : Str → Bool} {r : Registry}
    {msg : IncomingPublishPacket} {mail' : Mail} {e : Str × SubscriptionKind}
    (h : Routed chosen r msg sampleMail mail') (h' : Routed chosen' r msg sampleMail mail')
    (hmem : e ∈ r.entries) (halone : r.Alone e) : chosen e.1 = chosen' e.1 := by
  have hcounts := h.counts h' halone
  rw [halone.countP, halone.countP] at hcounts
  have hpos : 0 < r.entries.countP (·.2 == e.2) :=
    List.countP_pos_iff.mpr ⟨e, hmem, beq_self_eq_true _⟩
  cases hchosen : chosen e.1 <;> cases hchosen' : chosen' e.1
  all_goals
    simp only [hchosen, hchosen', if_true, Bool.false_eq_true, if_false] at hcounts
  · rfl
  · exact absurd hcounts.symm (Nat.pos_iff_ne_zero.mp hpos)
  · exact absurd hcounts (Nat.pos_iff_ne_zero.mp hpos)
  · rfl

/-! ## Routing -/

/-- The established subscriptions have plain filters with an optional last `#`. If the broker
and the tree agree on each of them for the topic of a message, then the message is handed to
the receivers whose filters match under the rules of the broker, once for each registration,
and to no others. If the message is handed out like this whatever the queues hold, then the
broker and the tree agree on the filter of each receiver that has only this one. -/
theorem hash_routing_mqtt (ops : List TreeOp) (msg : IncomingPublishPacket)
    (hfilters : ∀ e ∈ (TreeOp.run ops).2.entries, hashFilter e.1 = true) :
    ((∀ e ∈ (TreeOp.run ops).2.entries, departs e.1 msg.topic = false) →
      ∀ mail, Routed (mqttMatches · msg.topic) (TreeOp.run ops).2 msg mail
        (((TreeOp.run ops).1.dispatch msg).run mail).2) ∧
    ((∀ mail, Routed (mqttMatches · msg.topic) (TreeOp.run ops).2 msg mail
        (((TreeOp.run ops).1.dispatch msg).run mail).2) →
      ∀ e ∈ (TreeOp.run ops).2.entries, (TreeOp.run ops).2.Alone e →
        departs e.1 msg.topic = false) := by
  have htree := (Represents.run ops).routed msg
  refine ⟨fun hagree mail => ?_, fun hrouted e he halone => ?_⟩
  · exact (htree mail).congr fun e he => filterMatches_eq_mqtt (hfilters e he) (hagree e he)
  · have hchosen := (htree sampleMail).chosen_eq (hrouted sampleMail) he halone
    exact (filterMatches_eq_mqtt_iff (hfilters e he)).mp hchosen

/-- Callback 7 is registered under this filter. -/
def calledUnder (filter : Str) : List TreeOp := [.accept filter (.fastCallback ⟨7, 0⟩)]

/-- A message with a topic of these bytes and no payload. -/
def topicMessage (topic : List UInt8) : IncomingPublishPacket :=
  ⟨⟨topic.length, ⟨.new false .atMostOnce false, 0⟩⟩, topic⟩

theorem hash_routing_mqtt_below : ∃ called : List FastCallback,
    (((TreeOp.run (calledUnder ['a', '/', '#'])).1.dispatch sampleMessage).run sampleMail).2.calls =
      called.map (·, sampleMessage) ∧ called.count ⟨7, 0⟩ = 1 := by
  have hentries : (TreeOp.run (calledUnder ['a', '/', '#'])).2.entries =
      [(['a', '/', '#'], .fastCallback ⟨7, 0⟩)] := by
    decide +kernel
  obtain ⟨called, hcalls, hcount⟩ := ((hash_routing_mqtt (calledUnder ['a', '/', '#'])
    sampleMessage (by rw [hentries]; decide +kernel)).1
    (by rw [hentries]; decide +kernel) sampleMail).calls
  refine ⟨called, hcalls, ?_⟩
  rw [hcount, hentries]
  decide +kernel

/-- A broker sends a message with the topic `a` for the filter `a/#`, and the tree hands it
to nobody. A message with the topic `$x` is sent for the filter `$x` but not for `#`, and
the tree hands it to the receiver of `#` as well. -/
theorem hash_routing_departs :
    hashFilter ['a', '/', '#'] = true ∧
    mqttMatches ['a', '/', '#'] (topicMessage [97]).topic = true ∧
    (((TreeOp.run (calledUnder ['a', '/', '#'])).1.dispatch (topicMessage [97])).run
      sampleMail).2.calls = [] ∧
    hashFilter ['#'] = true ∧ mqttMatches ['#'] (topicMessage [36, 120]).topic = false ∧
    (((TreeOp.run (calledUnder ['#'] ++ [.accept ['$', 'x'] (.unbounded 0)])).1.dispatch
      (topicMessage [36, 120])).run sampleMail).2.calls = [(⟨7, 0⟩, topicMessage [36, 120])] := by
  decide +kernel

end Lmc
