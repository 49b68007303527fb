import SignalDesk.Proofs.Engine.Sound

/-!
# Commands that are given up

An engine may be asked to go on after a command that was given up half way. The command has then left
what its desk had made of it, or nothing where no desk could be opened, and it has reported nothing.
What every command preserves, given up or not, holds of every engine that commands lead to.
-/

namespace SignalDesk

private theorem mem_toOption_iff {α : Type} {result : Except Abort α} {a : α} :
    a ∈ result.toOption ↔ result = .ok a := by
  cases result <;> simp [Except.toOption]

namespace Act

variable {σ α β : Type} {s s' : σ} {act : Act σ α} {a : α}

private theorem Yields.bind_outcome (h : act.Yields s a s') (next : α → Act σ β) :
    ((act >>= next) s).outcome = (next a s').outcome := by
  obtain ⟨hout, rfl⟩ := h
  change (Act.bind act next s).outcome = _
  rw [Act.bind]
  generalize act s = attempt at hout ⊢
  obtain ⟨_, state, notices⟩ := attempt
  cases hout
  rfl

theorem Yields.bind_state (h : act.Yields s a s') (next : α → Act σ β) :
    ((act >>= next) s).state = (next a s').state := by
  obtain ⟨hout, rfl⟩ := h
  change (Act.bind act next s).state = _
  rw [Act.bind]
  generalize act s = attempt at hout ⊢
  obtain ⟨_, state, notices⟩ := attempt
  cases hout
  rfl

end Act

/-- Work on a record that is not given up has decided on it. -/
theorem Desk.decided_of_mem {composer : Composer} {record : Record} {desk : Desk} {account : Account}
    {attempt : Attempt (Desk × Account) Evaluation} {evaluation : Evaluation}
    (hattempt : Desk.onRecord composer record (desk, account) = attempt)
    (h : evaluation ∈ attempt.outcome.toOption) :
    Desk.Decided composer record desk account evaluation attempt.state.1 attempt.state.2 := by
  subst hattempt
  exact Desk.recordPlan_decided ⟨mem_toOption_iff.1 h, rfl⟩

namespace Engine

open Act

/-- What a command reports. One that is given up reports nothing. -/
def reported? (command : Command) (engine : Engine) : Option Evaluation :=
  (handle command engine).outcome.toOption.join

def afterAll : List Command → Engine → Engine
  | [], engine => engine
  | command :: commands, engine => afterAll commands (handle command engine).state

def reportsOf : List Command → Engine → List Evaluation
  | [], _ => []
  | command :: commands, engine =>
    (reported? command engine).toList ++ reportsOf commands (handle command engine).state

/-- What a command reports and the engine that it leaves, given up or not. -/
inductive Tried (engine : Engine) : Command → Option Evaluation → Engine → Prop
  | kept {command : Command} : Tried engine command none engine
  | cleared {account : Account} : Tried engine .clearHalt none { engine with account }
  | worked {text : String} {record : Record} {desk : Desk} {attempt : Attempt (Desk × Account) Evaluation}
      (hrecord : (Command.message text).record? = some record)
      (hdesk : engine.deskFor record.instrument = .ok desk)
      (hattempt : Desk.onRecord engine.composer record (desk, engine.account) = attempt) :
      Tried engine (.message text) attempt.outcome.toOption
        (engine.withDesk record.instrument attempt.state.1 attempt.state.2)

variable {engine : Engine}

private theorem process_at_desk {record : Record} {desk : Desk}
    {attempt : Attempt (Desk × Account) Evaluation} (hvalid : record.isValid = true)
    (hdesk : engine.deskFor record.instrument = .ok desk)
    (hattempt : Desk.onRecord engine.composer record (desk, engine.account) = attempt) :
    (process record engine).outcome.toOption.join = attempt.outcome.toOption ∧
      (process record engine).state =
        engine.withDesk record.instrument attempt.state.1 attempt.state.2 := by
  obtain ⟨desks, hopen, hput⟩ := openDesk_yields hdesk
  have hnotify : (Act.notify (acceptance record) : Act Engine Unit).Yields engine () engine :=
    yields_notify_iff.2 rfl
  have hget : Act.get.Yields { engine with desks } { engine with desks } { engine with desks } :=
    yields_get_iff.2 ⟨rfl, rfl⟩
  unfold process
  rw [hnotify.bind_outcome, hnotify.bind_state, if_pos hvalid, hopen.bind_outcome,
    hopen.bind_state, hget.bind_outcome, hget.bind_state, withDesk, ← hput]
  simp only [bind, Act.bind, Act.focus, hattempt]
  obtain ⟨outcome, state, notices⟩ := attempt
  cases outcome <;> exact ⟨rfl, rfl⟩

private theorem process_without_desk {record : Record} {abort : Abort}
    (hdesk : engine.deskFor record.instrument = .error abort) :
    (process record engine).outcome.toOption.join = none ∧ (process record engine).state = engine := by
  have hnotify : (Act.notify (acceptance record) : Act Engine Unit).Yields engine () engine :=
    yields_notify_iff.2 rfl
  have hopen : (openDesk record.instrument engine).outcome = .error abort ∧
      (openDesk record.instrument engine).state = engine := by
    unfold deskFor at hdesk
    split at hdesk
    · cases hdesk
    · rename_i hnone
      simp only [openDesk, bind, Act.bind, Act.get, hnone, Act.notify, Act.lift, hdesk]
      exact ⟨trivial, trivial⟩
  unfold process
  rw [hnotify.bind_outcome, hnotify.bind_state]
  split
  · change (Act.bind (openDesk record.instrument) _ engine).outcome.toOption.join = none ∧
      (Act.bind (openDesk record.instrument) _ engine).state = engine
    rw [Act.bind]
    generalize openDesk record.instrument engine = attempt at hopen ⊢
    obtain ⟨outcome, state, notices⟩ := attempt
    obtain ⟨hout, hstate⟩ := hopen
    cases hout
    exact ⟨rfl, hstate⟩
  · exact ⟨rfl, rfl⟩

theorem handle_tried (command : Command) (engine : Engine) :
    Tried engine command (reported? command engine) (handle command engine).state := by
  cases command with
  | clearHalt =>
    change Tried engine .clearHalt (Act.bind clearHalt _ engine).outcome.toOption.join
      (Act.bind clearHalt _ engine).state
    simp only [Act.bind, Engine.clearHalt, Act.focus]
    generalize Account.clearHalt engine.account = attempt
    obtain ⟨outcome, account, notices⟩ := attempt
    cases outcome <;> exact .cleared
  | message text =>
    change Tried engine (.message text) (processMessage text engine).outcome.toOption.join
      (processMessage text engine).state
    unfold processMessage
    cases hdecode : Record.decode? text with
    | none => exact .kept
    | some record =>
      cases hvalid : record.isValid with
      | false =>
        have hnotify : (Act.notify (acceptance record) : Act Engine Unit).Yields engine () engine :=
          yields_notify_iff.2 rfl
        simp only [process, hnotify.bind_outcome, hnotify.bind_state, hvalid]
        exact .kept
      | true =>
        cases hdesk : engine.deskFor record.instrument with
        | error abort =>
          obtain ⟨hout, hstate⟩ := process_without_desk hdesk
          simp only [hout, hstate]
          exact .kept
        | ok desk =>
          obtain ⟨hout, hstate⟩ := process_at_desk hvalid hdesk rfl
          simp only [hout, hstate]
          exact .worked (Command.record?_message.2 (Record.parse_ok_iff.2 ⟨hdecode, hvalid⟩)) hdesk rfl

/-- What every command preserves, given up or not, holds after all of them. -/
theorem afterAll_induction {holds : Engine → Prop} (commands : List Command)
    (hstep : ∀ engine command, holds engine → holds (handle command engine).state)
    (hstart : holds engine) : holds (afterAll commands engine) := by
  induction commands generalizing engine with
  | nil => exact hstart
  | cons command commands ih => exact ih (hstep engine command hstart)

theorem Sound.handle {config : Config} (h : engine.Sound config) (command : Command) :
    (handle command engine).state.Sound config := by
  have htried := handle_tried command engine
  generalize (Engine.handle command engine).state = engine' at htried ⊢
  generalize reported? command engine = evaluation? at htried
  cases htried with
  | kept => exact h
  | cleared => exact ⟨h.sameConfig, h.sameComposer, h.desks⟩
  | worked hrecord hdesk hattempt =>
    have hvalid := (Record.parse_ok_iff.1 (Command.record?_message.1 hrecord)).2
    have hdesk' := (h.deskFor hdesk).onRecord hvalid engine.composer engine.account
    rw [hattempt] at hdesk'
    exact h.withDesk hdesk' _ _

theorem Sound.afterAll {config : Config} (h : engine.Sound config) (commands : List Command) :
    (engine.afterAll commands).Sound config :=
  afterAll_induction commands (fun _ command h => h.handle command) h

/-- What every command may report holds of all that commands report. -/
theorem forall_mem_reportsOf {config : Config} {holds : Evaluation → Prop} (commands : List Command)
    (hstep : ∀ engine command, engine.Sound config → ∀ evaluation ∈ reported? command engine,
      holds evaluation)
    (hstart : engine.Sound config) : ∀ evaluation ∈ engine.reportsOf commands, holds evaluation := by
  induction commands generalizing engine with
  | nil => exact fun _ h => absurd h List.not_mem_nil
  | cons command commands ih =>
    refine List.forall_mem_append.2 ⟨fun evaluation h => ?_, ih (hstart.handle command)⟩
    exact hstep engine command hstart evaluation (Option.mem_toList.1 h)

end Engine

end SignalDesk
