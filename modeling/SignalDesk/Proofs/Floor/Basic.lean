import SignalDesk.Proofs.Floor.Call

/-!
# The trading floor

Any number of traders share one account. A call works on its own trader until it needs the account,
and other traders can be called and answered while it waits. Whatever happens on the floor is a list
of moves, and a move that makes no sense changes nothing.
-/

namespace SignalDesk

/-- A trader and the call it is busy with. -/
structure Seat where
  trader : Trader
  /-- The call in progress, as far as it has come without the account. -/
  pending : Option (Plan Trader (Except Refusal (Option PositionEvent)))

structure Floor where
  seats : List Seat
  account : Account

namespace Floor

inductive Move where
  /-- Calls the trader of a seat, if it is not busy. -/
  | call (seat : Nat) (call : Call)
  /-- Brings the call that a seat is busy with to its end. -/
  | answer (seat : Nat)
  | clearHalt

/-- What an observer sees of a move. -/
inductive Report where
  | answered (seat : Nat) (outcome : Except Abort (Except Refusal (Option PositionEvent)))
  | cleared (outcome : Except Abort Unit)

def opening (traders : List Trader) (account : Account) : Floor :=
  ⟨traders.map fun trader => ⟨trader, none⟩, account⟩

def traders (floor : Floor) : List Trader := floor.seats.map Seat.trader

def step (floor : Floor) : Move → Floor × Option Report
  | .call i call =>
    match floor.seats[i]? with
    | some ⟨trader, none⟩ =>
      ({ floor with seats := floor.seats.set i ⟨trader, some (call.plan trader)⟩ }, none)
    | _ => (floor, none)
  | .answer i =>
    match floor.seats[i]? with
    | some ⟨trader, some plan⟩ =>
      let attempt := plan.run (trader, floor.account)
      (⟨floor.seats.set i ⟨attempt.state.1, none⟩, attempt.state.2⟩,
        some (.answered i attempt.outcome))
    | _ => (floor, none)
  | .clearHalt =>
    let attempt := Account.clearHalt floor.account
    ({ floor with account := attempt.state }, some (.cleared attempt.outcome))

def run (floor : Floor) : List Move → Floor × List Report
  | [] => (floor, [])
  | move :: moves =>
    let next := floor.step move
    let rest := next.1.run moves
    (rest.1, next.2.toList ++ rest.2)

/-- A call that is answered at once is the whole of an entry. -/
theorem run_enter_answer {floor : Floor} {i : Nat} {trader : Trader}
    (hseat : floor.seats[i]? = some ⟨trader, none⟩) (composite : Composite) (quote : Option Quote) :
    let attempt := Trader.tryEnter composite quote (trader, floor.account)
    floor.run [.call i (.enter composite quote), .answer i] =
      (⟨floor.seats.set i ⟨attempt.state.1, none⟩, attempt.state.2⟩,
        [.answered i attempt.outcome]) := by
  have hlt := (List.getElem?_eq_some_iff.1 hseat).1
  simp [run, step, hseat, List.getElem?_set_self hlt, Call.plan, Trader.tryEnter]

theorem run_exit_answer {floor : Floor} {i : Nat} {trader : Trader}
    (hseat : floor.seats[i]? = some ⟨trader, none⟩) (quote : Option Quote) (ts : Timestamp) :
    let attempt := Trader.checkExit quote ts (trader, floor.account)
    floor.run [.call i (.exit quote ts), .answer i] =
      (⟨floor.seats.set i ⟨attempt.state.1, none⟩, attempt.state.2⟩,
        [.answered i (attempt.outcome.map .ok)]) := by
  have hlt := (List.getElem?_eq_some_iff.1 hseat).1
  have hwhole : (Call.plan (.exit quote ts) trader).run (trader, floor.account) =
      ⟨(Trader.checkExit quote ts (trader, floor.account)).outcome.map .ok,
        (Trader.checkExit quote ts (trader, floor.account)).state,
        (Trader.checkExit quote ts (trader, floor.account)).notices⟩ :=
    Plan.run_andThen_pure _ _ _
  simp [run, step, hseat, List.getElem?_set_self hlt, hwhole]

/-- Every call in progress was made on the trader as it still is. -/
def PendingFresh (floor : Floor) : Prop :=
  ∀ seat ∈ floor.seats, ∀ plan ∈ seat.pending, ∃ call : Call, plan = call.plan seat.trader

@[simp] theorem opening_traders (traders : List Trader) (account : Account) :
    (opening traders account).traders = traders := by
  simp [opening, Floor.traders, Function.comp_def]

theorem set_traders {floor : Floor} {i : Nat} {seat : Seat} (hseat : floor.seats[i]? = some seat)
    (next : Seat) (account : Account) :
    ∃ before after, floor.traders = before ++ seat.trader :: after ∧
      (⟨floor.seats.set i next, account⟩ : Floor).traders = before ++ next.trader :: after := by
  obtain ⟨hlt, hget⟩ := List.getElem?_eq_some_iff.1 hseat
  obtain ⟨before, after, hseats, -, hset⟩ : ∃ before after,
      floor.seats = before ++ floor.seats[i] :: after ∧ before.length = i ∧
        floor.seats.set i next = before ++ next :: after := List.exists_of_set hlt
  refine ⟨before.map Seat.trader, after.map Seat.trader, ?_, ?_⟩
  · rw [traders, hseats, hget, List.map_append, List.map_cons]
  · rw [traders, hset, List.map_append, List.map_cons]

theorem opening_pendingFresh (traders : List Trader) (account : Account) :
    (opening traders account).PendingFresh := by
  intro seat hseat plan hplan
  obtain ⟨trader, -, rfl⟩ := List.mem_map.1 hseat
  cases hplan

theorem step_pendingFresh {floor : Floor} (h : floor.PendingFresh) (move : Move) :
    (floor.step move).1.PendingFresh := by
  have hset (i : Nat) (seat : Seat) (account : Account)
      (hseat : ∀ plan ∈ seat.pending, ∃ call : Call, plan = call.plan seat.trader) :
      (⟨floor.seats.set i seat, account⟩ : Floor).PendingFresh := by
    intro other hother
    rcases List.mem_or_eq_of_mem_set hother with hother | rfl
    · exact h other hother
    · exact hseat
  cases move with
  | call i call =>
    rw [step]
    split
    · refine hset i _ _ fun plan hplan => ⟨call, ?_⟩
      exact (Option.some.inj hplan).symm
    · exact h
  | answer i =>
    rw [step]
    split
    · refine hset i _ _ fun plan hplan => ?_
      cases hplan
    · exact h
  | clearHalt => exact h

theorem run_pendingFresh {floor : Floor} (h : floor.PendingFresh) (moves : List Move) :
    (floor.run moves).1.PendingFresh := by
  induction moves generalizing floor with
  | nil => exact h
  | cons move moves ih => exact ih (step_pendingFresh h move)

/-- A report of a call that was not given up tells what became of its trader and of the account. -/
theorem step_answered {floor : Floor} (h : floor.PendingFresh) {move : Move} {i : Nat}
    {reply : Except Refusal (Option PositionEvent)}
    (hreport : (floor.step move).2 = some (.answered i (.ok reply))) :
    ∃ seat trader account, floor.seats[i]? = some seat ∧
      Call.Answered seat.trader floor.account reply trader account ∧
      (floor.step move).1 = ⟨floor.seats.set i ⟨trader, none⟩, account⟩ := by
  cases move with
  | call j call =>
    rw [step] at hreport
    split at hreport <;> cases hreport
  | clearHalt => cases hreport
  | answer j =>
    rw [step] at hreport ⊢
    split at hreport
    · rename_i trader plan hseat
      simp only [Option.some.injEq, Report.answered.injEq] at hreport
      obtain ⟨rfl, hout⟩ := hreport
      obtain ⟨call, hplan⟩ := h _ (List.mem_of_getElem? hseat) plan rfl
      change plan = call.plan trader at hplan
      subst hplan
      exact ⟨_, _, _, hseat, Call.answered ⟨hout, rfl⟩, rfl⟩
    · cases hreport

theorem step_silent {floor : Floor} {move : Move} (h : (floor.step move).2 = none) :
    (floor.step move).1.account = floor.account ∧ (floor.step move).1.traders = floor.traders := by
  cases move with
  | call i call =>
    rw [step]
    split
    · rename_i trader hseat
      obtain ⟨before, after, hold, hnew⟩ :=
        set_traders hseat ⟨trader, some (call.plan trader)⟩ floor.account
      exact ⟨rfl, hnew.trans hold.symm⟩
    · exact ⟨rfl, rfl⟩
  | answer i =>
    rw [step] at h ⊢
    split at h
    · cases h
    · exact ⟨rfl, rfl⟩
  | clearHalt => cases h

theorem step_cleared {floor : Floor} {move : Move} {outcome : Except Abort Unit}
    (h : (floor.step move).2 = some (.cleared outcome)) :
    outcome = (Account.clearHalt floor.account).outcome ∧
      (floor.step move).1 = { floor with account := (Account.clearHalt floor.account).state } := by
  cases move with
  | call i call =>
    rw [step] at h
    split at h <;> cases h
  | answer i =>
    rw [step] at h
    split at h <;> cases h
  | clearHalt =>
    cases h
    exact ⟨rfl, rfl⟩

/-- A move moves the account at most once, and a halt is cleared by a clear only. -/
theorem step_account (floor : Floor) (move : Move) :
    (floor.step move).1.account = floor.account ∨
      ∃ movement, (movement = .clearHalt → move = .clearHalt) ∧
        (floor.step move).1.account = floor.account.after movement := by
  cases move with
  | call i call =>
    rw [step]
    split <;> exact .inl rfl
  | answer i =>
    rw [step]
    split
    · rename_i trader plan hseat
      rcases plan.run_account trader floor.account with hsame | ⟨movement, hne, hafter⟩
      · exact .inl hsame
      · exact .inr ⟨movement, fun he => absurd he hne, hafter⟩
    · exact .inl rfl
  | clearHalt => exact .inr ⟨.clearHalt, fun _ => rfl, Account.clearHalt_state _⟩

/-- What every movement of capital preserves, every move on the floor preserves. -/
theorem step_preserves (holds : Account → Prop)
    (hafter : ∀ account, holds account → ∀ movement, holds (account.after movement)) {floor : Floor}
    (h : holds floor.account) (move : Move) : holds (floor.step move).1.account := by
  rcases floor.step_account move with hsame | ⟨movement, -, hnext⟩
  · rwa [hsame]
  · rw [hnext]
    exact hafter _ h movement

theorem run_preserves (holds : Account → Prop)
    (hafter : ∀ account, holds account → ∀ movement, holds (account.after movement)) {floor : Floor}
    (h : holds floor.account) (moves : List Move) : holds (floor.run moves).1.account := by
  induction moves generalizing floor with
  | nil => exact h
  | cons move moves ih => exact ih (step_preserves holds hafter h move)

end Floor

end SignalDesk
