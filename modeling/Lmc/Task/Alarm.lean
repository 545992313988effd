import Lmc.Task.Progress

/-!
# A tick of the alarm

The loop over the timeouts takes one timeout after the other from the front of the queue that
it appends to, reads the clock afresh for each of them, and stops at the first that has not
expired. `rounds` is the list of the timeouts it takes, with the two readings of the clock that
a round makes. `Swept` says what the loop does in terms of this list: the queue is split into
the timeouts it has taken and those it keeps, and behind these are the refreshed ones.
-/

namespace Lmc

open EStateLogic

/-- A round of the loop over the timeouts that has found the first of them expired. -/
structure Round where
  entry : Timeout
  /-- The reading of the clock with which it had expired. -/
  checked : Nat
  /-- The packet if it was pending and is sent again, and the reading of the clock behind it. -/
  resent : Option (Packet × Nat)
deriving DecidableEq, Repr

namespace Round

/-- What the round hands to the output. -/
def handed (r : Round) : Option InternalPacket :=
  r.resent.map fun x => ⟨x.1, r.entry.packetId.ty == .publish⟩

/-- What the round appends to the queue. -/
def refreshed (r : Round) : Option Timeout := r.resent.map fun x => ⟨x.2, r.entry.packetId⟩

end Round

namespace Link

variable {τ : Type}

/-- The clock is not read between the two states. -/
def Timeless (link link' : Link τ) : Prop := link'.nows = link.nows

instance : Std.Refl (Timeless (τ := τ)) := ⟨fun _ => rfl⟩

instance : IsTrans (Link τ) Timeless := ⟨fun _ _ _ h h' => Eq.trans h' h⟩

variable [Transport τ]

theorem timeless_sends : Sends (τ := τ) Timeless where
  write src zero link := by
    simp only [after, write, EStateM.run_bind, EStateM.run_get]
    cases Transport.write link.transport src zero with
    | mk r t => cases r <;> rfl
  flush link := by
    simp only [after, flush, EStateM.run_bind, EStateM.run_get]
    cases Transport.flush link.transport with
    | mk r t => cases r <;> rfl
  setTx _ := .modify fun _ => rfl

theorem timeless_queueInternalPacket (packet : Packet) (setDup : Bool) :
    Advances Timeless (queueInternalPacket packet setDup : LinkM τ Unit) := by
  refine .bind (.modify fun _ => rfl) fun _ => .bind .get fun _ => .ite ?_ (.modify fun _ => rfl)
  exact timeless_sends.trySendPacket packet setDup

end Link

namespace Transceiver

variable {τ : Type}

/-- The next reading of the clock. -/
def time (tx : Transceiver τ) : Nat := tx.link.clock tx.link.nows

/-- Behind a reading of the clock. -/
def ticked (tx : Transceiver τ) : Transceiver τ :=
  { tx with link := { tx.link with nows := tx.link.nows + 1 } }

def setTimeouts (queue : List Timeout) (tx : Transceiver τ) : Transceiver τ :=
  { tx with timeoutQueue := queue }

variable [Transport τ]

/-- The first rounds of the loop that find an expired timeout, at most the given number. -/
def rounds : Nat → Transceiver τ → List Round
  | 0, _ => []
  | n + 1, tx =>
    match tx.timeoutQueue with
    | [] => []
    | timeout :: rest =>
      if tx.time - timeout.t < tx.packetResendDelay then []
      else
        let tx₁ := tx.ticked.setTimeouts rest
        match tx.pendingPacket timeout.packetId with
        | none => ⟨timeout, tx.time, none⟩ :: rounds n tx₁
        | some pkt =>
          match (queueInternalPacket pkt (timeout.packetId.ty == .publish)).run tx₁ with
          | .error _ tx₂ => [⟨timeout, tx.time, some (pkt, tx₂.time)⟩]
          | .ok _ tx₂ => ⟨timeout, tx.time, some (pkt, tx₂.time)⟩ ::
            rounds n (tx₂.ticked.setTimeouts (tx₂.timeoutQueue ++ [⟨tx₂.time, timeout.packetId⟩]))

/-- The rounds of a tick that find an expired timeout. -/
def tick (tx : Transceiver τ) : List Round :=
  if tx.connected then
    match pingIfIdle.run tx with
    | .ok _ tx₁ => rounds tx₁.timeoutQueue.length tx₁
    | .error _ _ => []
  else []

/-! ## One round -/

section Round

variable {tx : Transceiver τ} {x : Timeout} {rest : List Timeout} {n : Nat}

omit [Transport τ] in
theorem run_now (tx : Transceiver τ) :
    (onLink Link.now : TaskM τ Nat).run tx = .ok tx.time tx.ticked := rfl

theorem run_resendLoop_kept (hq : tx.timeoutQueue = x :: rest)
    (h : tx.time - x.t < tx.packetResendDelay) :
    (resendLoop (n + 1)).run tx = .ok () tx.ticked ∧ rounds (n + 1) tx = [] := by
  have hdelay : tx.time - x.t < tx.ticked.packetResendDelay := h
  constructor
  · simp only [resendLoop, EStateM.run_bind, EStateM.run_get, hq, run_now, if_pos hdelay]
    rfl
  · simp only [rounds, hq, if_pos h]

theorem run_resendLoop_settled (hq : tx.timeoutQueue = x :: rest)
    (h : ¬ tx.time - x.t < tx.packetResendDelay) (hpkt : tx.pendingPacket x.packetId = none) :
    (resendLoop (n + 1)).run tx = (resendLoop n).run (tx.ticked.setTimeouts rest) ∧
      rounds (n + 1) tx = ⟨x, tx.time, none⟩ :: rounds n (tx.ticked.setTimeouts rest) := by
  have hdelay : ¬ tx.time - x.t < tx.ticked.packetResendDelay := h
  have hnone : (tx.ticked.setTimeouts rest).pendingPacket x.packetId = none := hpkt
  have hresend : (resend x.packetId).run (tx.ticked.setTimeouts rest) =
      .ok () (tx.ticked.setTimeouts rest) := by
    simp only [resend, EStateM.run_bind, EStateM.run_get, hnone]
    rfl
  constructor
  · simp only [resendLoop, EStateM.run_bind, EStateM.run_get, hq, run_now, if_neg hdelay]
    show (resend x.packetId >>= fun _ => resendLoop n).run (tx.ticked.setTimeouts rest) = _
    rw [EStateM.run_bind, hresend]
  · simp only [rounds, hq, if_neg h, hpkt]

/-- The packet is handed to the output. If that succeeds the timeout is appended again. -/
theorem run_resendLoop_resent (hq : tx.timeoutQueue = x :: rest)
    (h : ¬ tx.time - x.t < tx.packetResendDelay) {pkt : Packet}
    (hpkt : tx.pendingPacket x.packetId = some pkt) :
    ∃ link, Link.Calm (tx.ticked.link.hand ⟨pkt, x.packetId.ty == .publish⟩) link ∧
      link.nows = tx.link.nows + 1 ∧
      let tx₂ := { tx.ticked.setTimeouts rest with link }
      let tx₃ := tx₂.ticked.setTimeouts (rest ++ [⟨tx₂.time, x.packetId⟩])
      ((resendLoop (n + 1)).run tx = (resendLoop n).run tx₃ ∧
          rounds (n + 1) tx = ⟨x, tx.time, some (pkt, tx₂.time)⟩ :: rounds n tx₃ ∨
        (∃ e, (resendLoop (n + 1)).run tx = .error (.io e) tx₂) ∧
          rounds (n + 1) tx = [⟨x, tx.time, some (pkt, tx₂.time)⟩]) := by
  have hdelay : ¬ tx.time - x.t < tx.ticked.packetResendDelay := h
  have hsome : (tx.ticked.setTimeouts rest).pendingPacket x.packetId = some pkt := hpkt
  have hloop : (resendLoop (n + 1)).run tx =
      (queueInternalPacket pkt (x.packetId.ty == .publish) >>= fun _ =>
        scheduleTimeout x.packetId >>= fun _ => resendLoop n).run (tx.ticked.setTimeouts rest) := by
    simp only [resendLoop, EStateM.run_bind, EStateM.run_get, hq, run_now, if_neg hdelay]
    show (resend x.packetId >>= fun _ => resendLoop n).run (tx.ticked.setTimeouts rest) = _
    simp only [resend, bind_assoc]
    rw [EStateM.run_bind, EStateM.run_get]
    simp only [hsome, bind_assoc, EStateM.run_bind]
  have htimeless := Link.timeless_queueInternalPacket pkt (x.packetId.ty == .publish)
    (tx.ticked.setTimeouts rest).link
  cases Link.handsOver_queueInternalPacket pkt (x.packetId.ty == .publish)
    (tx.ticked.setTimeouts rest).link with
  | ok link run calm =>
    rw [after_of_ok run] at htimeless
    have hrun : (queueInternalPacket pkt (x.packetId.ty == .publish)).run
        (tx.ticked.setTimeouts rest) = .ok () { tx.ticked.setTimeouts rest with link } := by
      rw [queueInternalPacket, onLink, run_zoom, run]
    refine ⟨link, calm, htimeless, Or.inl ⟨?_, ?_⟩⟩
    · rw [hloop, EStateM.run_bind, hrun]
      rfl
    · simp only [rounds, hq, if_neg h, hpkt, hrun]
      rfl
  | failed e link run calm =>
    rw [after_of_error run] at htimeless
    have hrun : (queueInternalPacket pkt (x.packetId.ty == .publish)).run
        (tx.ticked.setTimeouts rest) = .error (.io e) { tx.ticked.setTimeouts rest with link } := by
      rw [queueInternalPacket, onLink, run_zoom, run]
    refine ⟨link, calm, htimeless, Or.inr ⟨⟨e, ?_⟩, ?_⟩⟩
    · rw [hloop, EStateM.run_bind, hrun]
    · simp only [rounds, hq, if_neg h, hpkt, hrun]

end Round

/-! ## The loop -/

/-- A reading of the clock between two states. -/
def Reading (tx tx' : Transceiver τ) (t : Nat) : Prop :=
  ∃ k, tx.link.nows ≤ k ∧ k < tx'.link.nows ∧ t = tx.link.clock k

/-- What the loop has done. The timeouts `old` were in the queue when it started, `new` are
those it had appended already; it has taken those of the rounds, keeps `kept`, and has
appended `back`. -/
structure Swept (tx tx' : Transceiver τ) (old new kept back : List Timeout)
    (rounds : List Round) : Prop where
  split : old = rounds.map Round.entry ++ kept
  queue : tx'.timeoutQueue = kept ++ (new ++ back)
  back : back <+: rounds.filterMap Round.refreshed
  handed : tx'.link.handed = tx.link.handed ++ rounds.filterMap Round.handed
  book : tx'.toBook = tx.toBook
  clock : tx'.link.clock = tx.link.clock
  nows : tx.link.nows ≤ tx'.link.nows
  /-- Each round reads the clock twice at most. -/
  readings : tx'.link.nows ≤ tx.link.nows + 2 * old.length
  expired : ∀ r ∈ rounds, tx.packetResendDelay ≤ r.checked - r.entry.t
  checked : ∀ r ∈ rounds, Reading tx tx' r.checked
  pending : ∀ r ∈ rounds, r.resent.map Prod.fst = tx.pendingPacket r.entry.packetId

/-- What is added to that if the loop was not cut short by the transport. -/
structure Completed (tx tx' : Transceiver τ) (kept back : List Timeout)
    (rounds : List Round) : Prop where
  all : back = rounds.filterMap Round.refreshed
  refreshed : ∀ x ∈ back, Reading tx tx' x.t
  stopped : ∀ x ∈ kept.head?, ∃ t, Reading tx tx' t ∧ t - x.t < tx.packetResendDelay

omit [Transport τ] in
/-- No round: the loop has at most looked at the clock. -/
theorem Swept.none {tx tx' : Transceiver τ} {old new : List Timeout}
    (hqueue : tx'.timeoutQueue = old ++ new) (hhanded : tx'.link.handed = tx.link.handed)
    (hbook : tx'.toBook = tx.toBook) (hclock : tx'.link.clock = tx.link.clock)
    (hnows : tx.link.nows ≤ tx'.link.nows)
    (hreadings : tx'.link.nows ≤ tx.link.nows + 2 * old.length) :
    Swept tx tx' old new old [] [] where
  split := rfl
  queue := by rw [hqueue, List.append_nil]
  back := List.prefix_rfl
  handed := by rw [hhanded, List.filterMap_nil, List.append_nil]
  book := hbook
  clock := hclock
  nows := hnows
  readings := hreadings
  expired := List.forall_mem_nil _
  checked := List.forall_mem_nil _
  pending := List.forall_mem_nil _

omit [Transport τ] in
theorem Reading.mono {tx tx₁ tx₂ tx' : Transceiver τ} {t : Nat} (h : Reading tx₁ tx₂ t)
    (hclock : tx₁.link.clock = tx.link.clock) (hbefore : tx.link.nows ≤ tx₁.link.nows)
    (hbehind : tx₂.link.nows ≤ tx'.link.nows) : Reading tx tx' t := by
  obtain ⟨k, hk, hk', ht⟩ := h
  exact ⟨k, hbefore.trans hk, hk'.trans_le hbehind, hclock ▸ ht⟩

/-- What one round does. -/
structure Rounded (tx tx₁ : Transceiver τ) (r : Round) : Prop where
  handed : tx₁.link.handed = tx.link.handed ++ r.handed.toList
  book : tx₁.toBook = tx.toBook
  delay : tx₁.packetResendDelay = tx.packetResendDelay
  clock : tx₁.link.clock = tx.link.clock
  nows : tx.link.nows < tx₁.link.nows
  readings : tx₁.link.nows ≤ tx.link.nows + 2
  expired : tx.packetResendDelay ≤ r.checked - r.entry.t
  checked : r.checked = tx.time
  pending : r.resent.map Prod.fst = tx.pendingPacket r.entry.packetId

section Rounded

variable {tx tx₁ tx' : Transceiver τ} {r : Round} {old new kept back : List Timeout}
  {rs : List Round}

omit [Transport τ] in
theorem pendingPacket_congr (h : tx₁.toBook = tx.toBook) (id : IdType) :
    tx₁.pendingPacket id = tx.pendingPacket id := by
  rw [pendingPacket, pendingPacket, h]

theorem filterMap_cons_toList {α β : Type} (f : α → Option β) (a : α) (l : List α) :
    (a :: l).filterMap f = (f a).toList ++ l.filterMap f := by
  cases h : f a with
  | none => exact List.filterMap_cons_none h
  | some b => exact List.filterMap_cons_some h

omit [Transport τ] in
theorem Rounded.swept {new' : List Timeout} (hr : Rounded tx tx₁ r)
    (h : Swept tx₁ tx' old new' kept back rs) (hnew : new' = new ++ r.refreshed.toList) :
    Swept tx tx' (r.entry :: old) new kept (r.refreshed.toList ++ back) (r :: rs) where
  split := congrArg (r.entry :: ·) h.split
  queue := by rw [h.queue, hnew, List.append_assoc]
  back := by
    rw [filterMap_cons_toList, List.prefix_append_right_inj]
    exact h.back
  handed := by rw [h.handed, hr.handed, filterMap_cons_toList, List.append_assoc]
  book := h.book.trans hr.book
  clock := h.clock.trans hr.clock
  nows := hr.nows.le.trans h.nows
  readings := by
    have hfirst := hr.readings
    have hrest := h.readings
    rw [List.length_cons]
    omega
  expired := List.forall_mem_cons.mpr ⟨hr.expired, fun r' hr' => hr.delay ▸ h.expired r' hr'⟩
  checked := List.forall_mem_cons.mpr
    ⟨⟨tx.link.nows, le_rfl, hr.nows.trans_le h.nows, hr.checked⟩,
      fun r' hr' => (h.checked r' hr').mono hr.clock hr.nows.le le_rfl⟩
  pending := List.forall_mem_cons.mpr
    ⟨hr.pending, fun r' hr' => (h.pending r' hr').trans (pendingPacket_congr hr.book _)⟩

omit [Transport τ] in
theorem Rounded.completed (hr : Rounded tx tx₁ r) (hnows : tx₁.link.nows ≤ tx'.link.nows)
    (href : ∀ x ∈ r.refreshed, Reading tx tx₁ x.t) (h : Completed tx₁ tx' kept back rs) :
    Completed tx tx' kept (r.refreshed.toList ++ back) (r :: rs) where
  all := by rw [filterMap_cons_toList, h.all]
  refreshed x hx := by
    rcases List.mem_append.mp hx with hfirst | hrest
    · exact (href x (Option.mem_toList.mp hfirst)).mono rfl le_rfl hnows
    · exact (h.refreshed x hrest).mono hr.clock hr.nows.le le_rfl
  stopped x hx := by
    obtain ⟨t, ht, hlt⟩ := h.stopped x hx
    exact ⟨t, ht.mono hr.clock hr.nows.le le_rfl, hr.delay ▸ hlt⟩

end Rounded

/-- The loop, from a queue in which the timeouts that are left to look at come first. -/
theorem swept_resendLoop (old : List Timeout) : ∀ (new : List Timeout) (tx : Transceiver τ),
    tx.timeoutQueue = old ++ new → ∃ kept back tx',
      Swept tx tx' old new kept back (rounds old.length tx) ∧
      ((resendLoop old.length).run tx = .ok () tx' ∧
          Completed tx tx' kept back (rounds old.length tx) ∨
        ∃ e, (resendLoop old.length).run tx = .error (.io e) tx') := by
  induction old with
  | nil =>
    intro new tx hq
    refine ⟨[], [], tx, .none hq rfl rfl rfl le_rfl le_rfl,
      Or.inl ⟨rfl, rfl, List.forall_mem_nil _, ?_⟩⟩
    rintro _ ⟨⟩
  | cons x old ih =>
    intro new tx hq
    have hq' : tx.timeoutQueue = x :: (old ++ new) := hq
    by_cases hkept : tx.time - x.t < tx.packetResendDelay
    · obtain ⟨hrun, hrounds⟩ := run_resendLoop_kept (n := old.length) hq' hkept
      rw [List.length_cons, hrounds]
      have hreadings : tx.ticked.link.nows ≤ tx.link.nows + 2 * (x :: old).length := by
        show tx.link.nows + 1 ≤ _
        rw [List.length_cons]
        omega
      refine ⟨x :: old, [], tx.ticked, .none hq rfl rfl rfl (Nat.le_succ _) hreadings,
        Or.inl ⟨hrun, rfl, List.forall_mem_nil _, ?_⟩⟩
      rintro _ ⟨⟩
      exact ⟨tx.time, ⟨tx.link.nows, le_rfl, Nat.lt_succ_self _, rfl⟩, hkept⟩
    · cases hpkt : tx.pendingPacket x.packetId with
      | none =>
        obtain ⟨hrun, hrounds⟩ := run_resendLoop_settled (n := old.length) hq' hkept hpkt
        rw [List.length_cons, hrun, hrounds]
        have hround : Rounded tx (tx.ticked.setTimeouts (old ++ new)) ⟨x, tx.time, none⟩ :=
          ⟨(List.append_nil _).symm, rfl, rfl, rfl, Nat.lt_succ_self _, Nat.le_succ _,
            not_lt.mp hkept, rfl, hpkt.symm⟩
        obtain ⟨kept, back, tx', hswept, hend⟩ := ih new (tx.ticked.setTimeouts (old ++ new)) rfl
        refine ⟨kept, back, tx', hround.swept hswept (List.append_nil new).symm,
          hend.imp (fun hok => ⟨hok.1, ?_⟩) id⟩
        exact hround.completed hswept.nows nofun hok.2
      | some pkt =>
        obtain ⟨link, hcalm, hlink, hcases⟩ :=
          run_resendLoop_resent (n := old.length) hq' hkept hpkt
        have hround : ∀ tx₃ : Transceiver τ, tx₃.toBook = tx.toBook →
            tx₃.packetResendDelay = tx.packetResendDelay → tx₃.link.handed = link.handed →
            tx₃.link.clock = link.clock → link.nows ≤ tx₃.link.nows →
            tx₃.link.nows ≤ link.nows + 1 → ∀ t, Rounded tx tx₃ ⟨x, tx.time, some (pkt, t)⟩ :=
          fun tx₃ hbook hdelay hhanded hclock hnows hreadings t => ⟨hhanded.trans hcalm.handed,
            hbook, hdelay, hclock.trans hcalm.clock, hcalm.nows.trans hnows,
            hreadings.trans (by rw [hlink]), not_lt.mp hkept, rfl, hpkt.symm⟩
        rcases hcases with ⟨hrun, hrounds⟩ | ⟨⟨e, hrun⟩, hrounds⟩
        · rw [List.length_cons, hrun, hrounds]
          let y : Timeout := ⟨link.clock link.nows, x.packetId⟩
          let tx₃ : Transceiver τ := ticked { tx.ticked.setTimeouts (old ++ new ++ [y]) with link }
          have hq₃ : tx₃.timeoutQueue = old ++ (new ++ [y]) := List.append_assoc old new [y]
          obtain ⟨kept, back, tx', hswept, hend⟩ := ih (new ++ [y]) tx₃ hq₃
          have hr := hround tx₃ rfl rfl rfl rfl (Nat.le_succ _) le_rfl (link.clock link.nows)
          refine ⟨kept, _, tx', hr.swept hswept rfl, hend.imp (fun hok => ⟨hok.1, ?_⟩) id⟩
          refine hr.completed hswept.nows ?_ hok.2
          rintro _ ⟨⟩
          exact ⟨link.nows, (Nat.le_succ _).trans hcalm.nows, Nat.lt_succ_self _,
            congrFun hcalm.clock link.nows⟩
        · rw [List.length_cons, hrun, hrounds]
          have hr := hround { tx.ticked.setTimeouts (old ++ new) with link } rfl rfl rfl rfl le_rfl
            (Nat.le_succ _) (link.clock link.nows)
          have hreadings : link.nows ≤ tx.link.nows + 2 * (x :: old).length := by
            rw [hlink, List.length_cons]
            omega
          refine ⟨old, [], _, ⟨rfl, ?_, List.nil_prefix, hr.handed, rfl, hr.clock, hr.nows.le,
            hreadings, List.forall_mem_singleton.mpr hr.expired, List.forall_mem_singleton.mpr ?_,
            List.forall_mem_singleton.mpr hr.pending⟩, Or.inr ⟨e, rfl⟩⟩
          · rw [List.append_nil]
            rfl
          · exact ⟨tx.link.nows, le_rfl, hr.nows, rfl⟩

/-! ## The whole tick -/

/-- What the tick does before the loop: it may send `PINGREQ`. -/
structure Pinged (tx tx₁ : Transceiver τ) (ping : List InternalPacket) : Prop where
  sends : ping = [] ∨ ping = [⟨tx.pingReq, false⟩]
  handed : tx₁.link.handed = tx.link.handed ++ ping
  book : tx₁.toBook = tx.toBook
  queue : tx₁.timeoutQueue = tx.timeoutQueue
  delay : tx₁.packetResendDelay = tx.packetResendDelay
  clock : tx₁.link.clock = tx.link.clock
  nows : tx.link.nows ≤ tx₁.link.nows
  readings : tx₁.link.nows ≤ tx.link.nows + 2

theorem run_pingIfIdle (tx : Transceiver τ) : ∃ ping tx₁, Pinged tx tx₁ ping ∧
    (pingIfIdle.run tx = .ok () tx₁ ∨ ∃ e, pingIfIdle.run tx = .error (.io e) tx₁) := by
  by_cases hidle : tx.time - tx.link.lastTx ≥ tx.pingInterval
  · let tx₀ : Transceiver τ :=
      { tx.ticked.ticked with link := { tx.ticked.ticked.link with lastTx := tx.ticked.time } }
    have hping : (pingIfIdle : TaskM τ Unit).run tx =
        (queueInternalPacket tx.pingReq false : TaskM τ Unit).run tx₀ := by
      have hidle' : tx.time - tx.ticked.link.lastTx ≥ tx.ticked.pingInterval := hidle
      simp only [pingIfIdle, EStateM.run_bind, EStateM.run_get, run_now, if_pos hidle']
      rfl
    have hpinged : ∀ link, Link.Calm (tx₀.link.hand ⟨tx.pingReq, false⟩) link →
        link.nows = tx.link.nows + 2 → Pinged tx { tx₀ with link } [⟨tx.pingReq, false⟩] :=
      fun link calm hnows => ⟨.inr rfl, calm.handed, rfl, rfl, rfl, calm.clock,
        ((Nat.le_succ _).trans (Nat.le_succ _)).trans calm.nows, hnows.le⟩
    rw [hping, queueInternalPacket, onLink, run_zoom]
    have htimeless := Link.timeless_queueInternalPacket tx.pingReq false tx₀.link
    cases Link.handsOver_queueInternalPacket tx.pingReq false tx₀.link with
    | ok link run calm =>
      rw [after_of_ok run] at htimeless
      exact ⟨_, _, hpinged link calm htimeless, .inl (by rw [run])⟩
    | failed e link run calm =>
      rw [after_of_error run] at htimeless
      exact ⟨_, _, hpinged link calm htimeless, .inr ⟨e, by rw [run]⟩⟩
  · refine ⟨[], tx.ticked, ⟨.inl rfl, (List.append_nil _).symm, rfl, rfl, rfl, rfl,
      Nat.le_succ _, Nat.le_succ _⟩, .inl ?_⟩
    have hidle' : ¬ tx.time - tx.ticked.link.lastTx ≥ tx.ticked.pingInterval := hidle
    simp only [pingIfIdle, EStateM.run_bind, EStateM.run_get, run_now, if_neg hidle']
    rfl

/-- What a tick of a connected transceiver does, whether the transport fails or not. -/
theorem run_onAlarm {tx : Transceiver τ} (hconn : tx.connected = true) :
    ∃ ping tx₁, Pinged tx tx₁ ping ∧
      ((∃ e, onAlarm.run tx = .error (.io e) tx₁) ∧ tx.tick = [] ∨
        ∃ kept back tx', Swept tx₁ tx' tx.timeoutQueue [] kept back tx.tick ∧
          (onAlarm.run tx = .ok () tx' ∧ Completed tx₁ tx' kept back tx.tick ∨
            ∃ e, onAlarm.run tx = .error (.io e) tx')) := by
  obtain ⟨ping, tx₁, hpinged, hok | ⟨e, herror⟩⟩ := run_pingIfIdle tx
  · have hrun : (onAlarm : TaskM τ Unit).run tx =
        (resendLoop tx.timeoutQueue.length).run tx₁ := by
      simp only [onAlarm, EStateM.run_bind, EStateM.run_get, if_pos hconn, hok, hpinged.queue]
    have htick : tx.tick = rounds tx.timeoutQueue.length tx₁ := by
      simp only [tick, if_pos hconn, hok, hpinged.queue]
    rw [hrun, htick]
    refine ⟨ping, tx₁, hpinged, .inr (swept_resendLoop tx.timeoutQueue [] tx₁ ?_)⟩
    rw [hpinged.queue, List.append_nil]
  · refine ⟨ping, tx₁, hpinged, .inl ⟨⟨e, ?_⟩, ?_⟩⟩
    · simp only [onAlarm, EStateM.run_bind, EStateM.run_get, if_pos hconn, herror]
    · simp only [tick, if_pos hconn, herror]

/-! ## What a tick can send -/

/-- The timeout has expired at one of the readings of the clock that a tick can make, two
before the loop and two in each round. -/
def expires (tx : Transceiver τ) (x : Timeout) : Bool :=
  (List.range (2 + 2 * tx.timeoutQueue.length)).any fun k =>
    tx.packetResendDelay ≤ tx.link.clock (tx.link.nows + k) - x.t

/-- A tick hands over `PINGREQ` and what is pending under the keys of expired timeouts. -/
theorem handed_onAlarm (tx : Transceiver τ) :
    ∃ ps, (after onAlarm tx).link.handed = tx.link.handed ++ ps ∧
      ∀ p ∈ ps, p = ⟨tx.pingReq, false⟩ ∨ ∃ x ∈ tx.timeoutQueue, tx.expires x = true ∧
        ∃ pkt, tx.pendingPacket x.packetId = some pkt ∧
          p = ⟨pkt, x.packetId.ty == .publish⟩ := by
  by_cases hconn : tx.connected = true
  · obtain ⟨ping, tx₁, hpinged, hcases⟩ := run_onAlarm hconn
    have hping : ∀ p ∈ ping, p = ⟨tx.pingReq, false⟩ := by
      intro p hp
      rcases hpinged.sends with rfl | rfl
      · cases hp
      · exact List.mem_singleton.mp hp
    rcases hcases with ⟨⟨e, hrun⟩, -⟩ | ⟨kept, back, tx', hswept, hend⟩
    · refine ⟨ping, ?_, fun p hp => Or.inl (hping p hp)⟩
      rw [after_of_error hrun, hpinged.handed]
    · have hafter : after onAlarm tx = tx' := by
        rcases hend with ⟨hrun, -⟩ | ⟨e, hrun⟩
        · exact after_of_ok hrun
        · exact after_of_error hrun
      refine ⟨ping ++ tx.tick.filterMap Round.handed, ?_, fun p hp => ?_⟩
      · rw [hafter, hswept.handed, hpinged.handed, List.append_assoc]
      rcases List.mem_append.mp hp with hp | hp
      · exact Or.inl (hping p hp)
      obtain ⟨r, hr, hhanded⟩ := List.mem_filterMap.mp hp
      obtain ⟨⟨pkt, t⟩, hresent, rfl⟩ := Option.map_eq_some_iff.mp hhanded
      refine Or.inr ⟨r.entry, ?_, ?_, pkt, ?_, rfl⟩
      · rw [hswept.split]
        exact List.mem_append_left _ (List.mem_map_of_mem hr)
      · -- the reading that the round has made is one of those counted
        obtain ⟨k, hk, hk', ht⟩ := hswept.checked r hr
        have hexpired := hswept.expired r hr
        have hreadings := hswept.readings
        have hbefore := hpinged.nows
        have hfirst := hpinged.readings
        refine List.any_eq_true.mpr ⟨k - tx.link.nows, List.mem_range.mpr (by omega), ?_⟩
        rw [decide_eq_true_eq, Nat.add_sub_cancel' (by omega), ← hpinged.clock, ← ht,
          ← hpinged.delay]
        exact hexpired
      · rw [← pendingPacket_congr hpinged.book, ← hswept.pending r hr, hresent]
        rfl
  · refine ⟨[], ?_, List.forall_mem_nil _⟩
    have hrun : (onAlarm : TaskM τ Unit).run tx = .ok () tx := by
      simp only [onAlarm, EStateM.run_bind, EStateM.run_get, if_neg hconn]
      rfl
    rw [after_of_ok hrun, List.append_nil]

end Transceiver

end Lmc
