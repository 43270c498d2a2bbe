/-
No message is pushed twice, and a user thread is answered in the order of its calls.

A message is pushed by the thread that holds it, and never goes back to where it could be
pushed again.  A user thread makes one message after another and pushes it before it makes
the next, so its messages enter the queue of a connection in the order of their numbers,
which is the order of its calls of `xv_service_send_message`.
-/
import Libxv.Proofs.Service.Delivery

namespace Libxv

open Function Transition

variable {P : Type} {cfg : Config} {ctl : EpollCtl} {s : State P} {c : Nat}
  {trace : List Delivery}

theorem pushes_append (l l' : List Delivery) : pushes (l ++ l') = pushes l ++ pushes l' :=
  List.filterMap_append

theorem sentBy_append (u : Nat) (l l' : List Delivery) :
    sentBy u (l ++ l') = sentBy u l ++ sentBy u l' := List.filterMap_append

/-! ### Records within records -/

theorem sentBy_sublist (u : Nat) (trace : List Delivery) :
    (sentBy u trace).Sublist (pushes trace) := by
  induction trace with
  | nil => exact .slnil
  | cons e rest ih =>
      rw [← List.singleton_append, sentBy_append, pushes_append]
      refine List.Sublist.append ?_ ih
      cases e with
      | pushed a c m => by_cases ha : a = .sender u <;> simp [sentBy, pushes, ha]
      | _ => simp [sentBy, pushes]

theorem pushedOn_sublist (c : Nat) (trace : List Delivery) :
    (pushedOn c trace).Sublist (pushes trace) := by
  induction trace with
  | nil => exact .slnil
  | cons e rest ih =>
      rw [← List.singleton_append, pushedOn_append, pushes_append]
      refine List.Sublist.append ?_ ih
      cases e with
      | pushed a c' m => by_cases hc : c' = c <;> simp [pushedOn, pushes, hc]
      | _ => simp [pushedOn, pushes]

theorem sentOn_append (u c : Nat) (l l' : List Delivery) :
    sentOn u c (l ++ l') = sentOn u c l ++ sentOn u c l' := List.filterMap_append

theorem sentOn_sublist (u c : Nat) (trace : List Delivery) :
    (sentOn u c trace).Sublist (sentBy u trace) ∧
      (sentOn u c trace).Sublist (pushedOn c trace) := by
  induction trace with
  | nil => exact ⟨.slnil, .slnil⟩
  | cons e rest ih =>
      rw [← List.singleton_append, sentBy_append, sentOn_append, pushedOn_append]
      refine ⟨List.Sublist.append ?_ ih.1, List.Sublist.append ?_ ih.2⟩
      all_goals
        cases e with
        | pushed a c' m =>
            by_cases ha : a = .sender u <;> by_cases hc : c' = c <;>
              simp [sentOn, sentBy, pushedOn, ha, hc]
        | _ => simp [sentOn, sentBy, pushedOn]

/-! ### One instruction -/

/-- A thread comes to a message before its push with a new message, or out of the tasks. -/
theorem Instr.stage_cases (hsound : s.Sound) {a : Agent} {act : Act P} {next : State P}
    {pc' : Pc P} (h : Instr cfg ctl s a (s.pc a) act next pc') {stage : Stage} {m : Nat}
    (hm : pc'.stage = some (stage, m)) (hstage : stage ≠ .returned) :
    (∃ stage', stage' ≠ .returned ∧ (s.pc a).stage = some (stage', m)) ∨ m = s.nextMsg ∨
      ∃ i, m ∈ s.contents (.tasks i) := by
  generalize hpc : s.pc a = pc at h
  have hkeep : pc.stage = some (stage, m) →
      (∃ stage', stage' ≠ .returned ∧ pc.stage = some (stage', m)) ∨ m = s.nextMsg ∨
        ∃ i, m ∈ s.contents (.tasks i) := fun hold => Or.inl ⟨stage, hstage, hold⟩
  cases h
  case request t fd c' out decoded conn chunks request hslot halive hread =>
    refine Or.inr (Or.inl ?_)
    split at hm
    all_goals
      simp only [Pc.stage, Option.some.injEq, Prod.mk.injEq] at hm
      exact hm.2.symm
  case process | taskProcess | taskFetch | sendFetch => exact hkeep hm
  case sendInit u c' package =>
    simp only [Pc.stage, Option.some.injEq, Prod.mk.injEq] at hm
    exact Or.inr (Or.inl hm.2.symm)
  case work i thread hrun hstep =>
    rcases WorkerThread.step_queue hstep with ⟨task, rest, hqueue, -, hnext⟩ | ⟨-, hnot⟩
    · have hcb := hsound.owned.callbacks i task (by rw [hqueue]; exact List.mem_cons_self)
      rw [if_pos hcb] at hnext
      rw [hnext] at hm
      obtain ⟨-, rfl⟩ : Stage.working = stage ∧ task.args.message = m := by
        simpa [WorkerPc.callback, Pc.stage] using hm
      exact Or.inr (Or.inr ⟨i, by simp [State.contents, hqueue]⟩)
    · rw [WorkerPc.callback_rest hnot] at hm
      exact absurd hm (by simp [Pc.stage])
  case returnPop t m' rest hqueue | returnedOpen t m' hopen =>
    simp only [Pc.stage, Option.some.injEq, Prod.mk.injEq] at hm
    exact absurd hm.1.symm hstage
  case closeBusy t c' resume _ | closeFree t c' resume =>
    cases resume <;> exact absurd hm (by simp [Resume.pc, Pc.stage])
  case respond | write => split at hm <;> exact absurd hm (by simp [Pc.stage])
  case finish t m' origin => cases origin <;> exact absurd hm (by simp [Origin.pc, Pc.stage])
  all_goals exact absurd hm (by simp [Pc.stage])

/-- A user thread holds the message it has made, until it pushes it. -/
theorem Instr.sender_holds {u : Nat} {pc pc' : Pc P} {act : Act P} {next : State P}
    (h : Instr cfg ctl s (.sender u) pc act next pc') {m : Nat} (hm : pc'.holds = some m) :
    pc.holds = some m ∨ m = s.nextMsg := by
  cases h
  case sendInit c' package => exact Or.inr (Option.some.inj hm).symm
  case sendFetch => exact Or.inl hm
  all_goals exact absurd hm (by simp [Pc.holds])

theorem Instr.nextMsg_le {a : Agent} {pc pc' : Pc P} {act : Act P} {next : State P}
    (h : Instr cfg ctl s a pc act next pc') : s.nextMsg ≤ next.nextMsg := by
  cases h
  case request | sendInit => exact Nat.le_succ _
  all_goals exact Nat.le_refl _

/-! ### The record -/

/-- The message is neither waiting for a worker nor in the hands of a thread that may push it. -/
structure State.Past (s : State P) (m : Nat) : Prop where
  known : m < s.nextMsg
  tasks : ∀ i, m ∉ s.contents (.tasks i)
  stages : ∀ a stage, (s.pc a).stage = some (stage, m) → stage = .returned

theorem Pc.stage_of_pushes {pc : Pc P} {t m : Nat} (h : pc.pushes = some (t, m)) :
    ∃ stage, stage ≠ .returned ∧ pc.stage = some (stage, m) := by
  cases pc <;> simp_all [Pc.pushes, Pc.stage]

theorem State.Past.instr {m : Nat} (h : s.Past m) (hsound : s.Sound) {a : Agent} {act : Act P}
    {next : State P} {pc' : Pc P} (hinstr : Instr cfg ctl s a (s.pc a) act next pc') :
    (next.goto a pc').Past m := by
  refine ⟨Nat.lt_of_lt_of_le h.known hinstr.nextMsg_le, ?_, ?_⟩
  · intro i hm
    obtain ⟨task, htask, rfl⟩ := List.mem_map.mp hm
    rcases hinstr.tasks_mem htask with hold | ⟨t, m', addr, rfl, hpc, -, -, rfl⟩
    · exact h.tasks i (List.mem_map.mpr ⟨task, hold, rfl⟩)
    · have hoffered := h.stages (.io t) .offered (by rw [hpc]; rfl)
      exact absurd hoffered (by decide)
  · intro b stage hm
    by_cases hb : b = a
    · subst hb
      rw [State.goto_pc_self] at hm
      by_contra hne
      rcases hinstr.stage_cases hsound hm hne with ⟨stage', hne', hold⟩ | hnew | ⟨i, htask⟩
      · exact hne' (h.stages b stage' hold)
      · exact absurd hnew (Nat.ne_of_lt h.known)
      · exact h.tasks i htask
    · rw [State.goto_pc_of_ne _ _ hb, hinstr.pc_eq] at hm
      exact h.stages b stage hm

/-- A message that has just been pushed. -/
theorem State.Sound.past_push (hsound : s.Sound) {a : Agent} {t m : Nat} {pc' : Pc P}
    (hpush : (s.pc a).pushes = some (t, m)) (hstage : pc'.stage = none) :
    ((s.pushMessage t m).goto a pc').Past m := by
  obtain ⟨hlive, hunique⟩ := hsound.owned.held (Pc.holds_of_pushes hpush)
  refine ⟨State.lt_of_live hlive, ?_, ?_⟩
  · intro i hm
    exact absurd (hunique (.tasks i) hm) (by simp)
  · intro b stage hm
    by_cases hb : b = a
    · subst hb
      rw [State.goto_pc_self, hstage] at hm
      simp at hm
    · rw [State.goto_pc_of_ne _ _ hb] at hm
      have hm : (s.pc b).stage = some (stage, m) := hm
      have hheld := hunique (.held b) (by simp [State.contents, Pc.holds_of_stage hm])
      exact absurd (Place.held.inj hheld) hb

/-- What the record says of pushes. -/
structure State.Pushes (s : State P) (trace : List Delivery) : Prop where
  past : ∀ m ∈ pushes trace, s.Past m
  nodup : (pushes trace).Nodup
  sorted : ∀ u, (sentBy u trace).Pairwise (· < ·)
  below : ∀ u m, (s.pc (.sender u)).holds = some m → ∀ m' ∈ sentBy u trace, m' < m

theorem State.Pushes.init : (State.init : State P).Pushes [] where
  past := fun _ hm => absurd hm List.not_mem_nil
  nodup := .nil
  sorted := fun _ => .nil
  below := fun _ _ _ _ hm => absurd hm List.not_mem_nil

/-- A step without a push. -/
theorem State.Pushes.quiet (h : s.Pushes trace) (hsound : s.Sound) {a : Agent} {act : Act P}
    {next : State P} {pc' : Pc P} (hinstr : Instr cfg ctl s a (s.pc a) act next pc')
    {trace' : List Delivery} (hpushes : pushes trace' = pushes trace)
    (hsent : ∀ u, sentBy u trace' = sentBy u trace) : (next.goto a pc').Pushes trace' := by
  refine ⟨fun m hm => ?_, hpushes ▸ h.nodup, fun u => hsent u ▸ h.sorted u, ?_⟩
  · rw [hpushes] at hm
    exact (h.past m hm).instr hsound hinstr
  · intro u m hm m' hm'
    rw [hsent] at hm'
    by_cases ha : a = .sender u
    · subst ha
      rw [State.goto_pc_self] at hm
      rcases hinstr.sender_holds hm with hold | rfl
      · exact h.below u m hold m' hm'
      · exact (h.past m' ((sentBy_sublist u trace).subset hm')).known
    · rw [State.goto_pc_of_ne _ _ (Ne.symm ha), hinstr.pc_eq] at hm
      exact h.below u m hm m' hm'

theorem State.Pushes.push (h : s.Pushes trace) (hsound : s.Sound) {a : Agent} {act : Act P}
    {t m : Nat} {pc' : Pc P} (hpush : (s.pc a).pushes = some (t, m)) (hholds : pc'.holds = none)
    (hstage : pc'.stage = none)
    (hinstr : Instr cfg ctl s a (s.pc a) act (s.pushMessage t m) pc') :
    ((s.pushMessage t m).goto a pc').Pushes (trace ++ [.pushed a c m]) := by
  have hpushes : pushes (trace ++ [.pushed a c m]) = pushes trace ++ [m] := by
    simp [pushes]
  have hnew : m ∉ pushes trace := by
    intro hm
    obtain ⟨stage, hne, hold⟩ := Pc.stage_of_pushes hpush
    exact hne ((h.past m hm).stages a stage hold)
  refine ⟨?_, ?_, fun u => ?_, fun u m' hm' m'' hm'' => ?_⟩
  · intro m' hm'
    rw [hpushes, List.mem_append, List.mem_singleton] at hm'
    rcases hm' with hold | rfl
    · exact (h.past m' hold).instr hsound hinstr
    · exact hsound.past_push hpush hstage
  · rw [hpushes]
    rw [← List.concat_eq_append]
    exact h.nodup.concat hnew
  · by_cases ha : a = .sender u
    · subst ha
      have hsent : sentBy u (trace ++ [.pushed (.sender u) c m]) = sentBy u trace ++ [m] := by
        simp [sentBy]
      rw [hsent, List.pairwise_append]
      refine ⟨h.sorted u, List.pairwise_singleton _ _, fun m' hm' m'' hm'' => ?_⟩
      rw [List.mem_singleton.mp hm'']
      exact h.below u m (Pc.holds_of_pushes hpush) m' hm'
    · have hsent : sentBy u (trace ++ [.pushed a c m]) = sentBy u trace := by
        simp [sentBy, ha]
      rw [hsent]
      exact h.sorted u
  · by_cases ha : a = .sender u
    · subst ha
      rw [State.goto_pc_self, hholds] at hm'
      simp at hm'
    · have hsent : sentBy u (trace ++ [.pushed a c m]) = sentBy u trace := by
        simp [sentBy, ha]
      rw [State.goto_pc_of_ne _ _ (Ne.symm ha)] at hm'
      rw [hsent] at hm''
      exact h.below u m' hm' m'' hm''

theorem State.Pushes.instr (h : s.Pushes trace) (hsound : s.Sound) {a : Agent} {act : Act P}
    {next : State P} {pc' : Pc P} (hinstr : Instr cfg ctl s a (s.pc a) act next pc') :
    (next.goto a pc').Pushes (trace ++ (s.deliversAt ctl a (s.pc a) act).toList) := by
  have hstep := hinstr.deliveryStep hsound
  generalize s.deliversAt ctl a (s.pc a) act = e at hstep
  cases hstep with
  | push hpush hnext ha hholds hstage =>
      subst hnext
      exact h.push hsound hpush hholds hstage hinstr
  | _ => exact h.quiet hsound hinstr (by simp [pushes]) fun u => by simp [sentBy]

theorem State.Pushes.refs (h : s.Pushes trace) {next : State P} (hsame : s.SameButRefs next) :
    next.Pushes trace := by
  refine ⟨fun m hm => ?_, h.nodup, h.sorted, hsame.pc ▸ h.below⟩
  obtain ⟨hknown, htasks, hstages⟩ := h.past m hm
  refine ⟨hsame.nextMsg ▸ hknown, fun i => ?_, hsame.pc ▸ hstages⟩
  rw [hsame.contents]
  exact htasks i

theorem State.pushes {x : Traced (State P) Delivery}
    (h : Reachable (Delivering cfg ctl) (Traced.Start (· = State.init)) x) :
    x.state.Pushes x.trace := by
  refine h.invariant_along (I := fun x => x.state.Pushes x.trace) ?_ ?_
  · intro x hx
    have hstate : x.state = State.init := hx.state
    rw [hstate, hx.trace]
    exact .init
  · intro x label x' hreach hx _ hmove
    obtain ⟨hstep, htrace⟩ := traced_some hmove
    have hrun := Reach.untraced hreach
    rw [htrace]
    rcases State.step_cases hstep with ⟨a, act, next, pc, rfl, -, -, hinstr, hnext⟩ |
        ⟨c, rfl, -, hnext⟩ | ⟨c, rfl, -, -, hnext⟩
    · rw [hnext]
      exact hx.instr (State.sound hrun) hinstr
    · rw [hnext, State.delivers, Option.toList_none, List.append_nil]
      exact hx.refs (x.state.incrRef_same c)
    · rw [hnext, State.delivers, Option.toList_none, List.append_nil]
      exact hx.refs (x.state.decrRef_same c)

/-! ### Order -/

/--
**Messages are answered in the order of their pushes, none twice, and none is skipped while
the connection is open**: what has been pushed on a connection, each message once, is what
has been answered, then what came back after the close, then what is in its io thread's
hands and queue; the answers are all that has been appended to `write_buffer`.
-/
theorem deliveries_in_order {x : Traced (State P) Delivery}
    (h : Reachable (Delivering cfg ctl) (Traced.Start (· = State.init)) x) {c : Nat}
    (hc : c < x.state.nextConn) :
    pushedOn c x.trace = answeredOn c x.trace ++ droppedOn c x.trace ++ x.state.inbox c ∧
      (pushedOn c x.trace).Nodup ∧
      ((x.state.conns c).conn.status = .opened → droppedOn c x.trace = []) ∧
      (x.state.conns c).appended = encodedOn c x.trace := by
  have hdelivered := State.delivered h
  have hpushes := State.pushes h
  refine ⟨?_, (pushedOn_sublist c x.trace).nodup hpushes.nodup, ?_, hdelivered.appended c hc⟩
  · obtain ⟨gone, hboth, hgone⟩ := hdelivered.line c
    rw [List.flatMap_singleton'] at hgone
    exact hboth.trans (congrArg (· ++ x.state.inbox c) hgone.symm)
  · intro hopen
    by_contra hne
    rw [hdelivered.closed c hne] at hopen
    exact absurd hopen (by decide)

/-- A user thread sends two messages, and the io thread answers the first. -/
def answerFirst : List (Label Unit) :=
  acceptOne ++ sendOne ++ sendOne ++ popReturned ++ goes (.io 0) 1 ++
    [.act (.io 0) (.respond [⟨1, [7], Nat.le_refl 1⟩] (.wrote 1))]

theorem deliveries_in_order_first : ∃ x : Traced (State Unit) Delivery,
    pushedOn 0 x.trace = [0, 1] ∧ answeredOn 0 x.trace = [0] ∧
      (pushedOn 0 x.trace = answeredOn 0 x.trace ++ droppedOn 0 x.trace ++ x.state.inbox 0 ∧
        (pushedOn 0 x.trace).Nodup ∧
        ((x.state.conns 0).conn.status = .opened → droppedOn 0 x.trace = []) ∧
        (x.state.conns 0).appended = encodedOn 0 x.trace) := by
  have hrun : ∃ x : Traced (State Unit) Delivery,
      Reachable (Delivering inlineConfig acceptAll) (Traced.Start (· = State.init)) x ∧
        x.state.nextConn = 1 ∧ pushedOn 0 x.trace = [0, 1] ∧ answeredOn 0 x.trace = [0] :=
    ⟨_, Reachable.play answerFirst (.start (Traced.new_start rfl)) rfl, rfl, rfl, rfl⟩
  obtain ⟨x, hreach, hnext, hpushed, hanswered⟩ := hrun
  exact ⟨x, hpushed, hanswered, deliveries_in_order hreach (by omega)⟩

/--
**A user thread is answered in the order of its calls**: of the messages answered on a
connection, those of one thread are the first that it has sent there, in the order in which
it has made them.
-/
theorem sender_answered_in_order {x : Traced (State P) Delivery}
    (h : Reachable (Delivering cfg ctl) (Traced.Start (· = State.init)) x) (u c : Nat) :
    ((answeredOn c x.trace).filter fun m => m ∈ sentOn u c x.trace) <+: sentOn u c x.trace ∧
      (sentOn u c x.trace).Pairwise (· < ·) := by
  have hpushes := State.pushes h
  obtain ⟨hsent, hpushed⟩ := sentOn_sublist u c x.trace
  constructor
  · obtain ⟨gone, hboth, hgone⟩ := (State.delivered h).line c
    rw [List.flatMap_singleton'] at hgone
    have hall : pushedOn c x.trace =
        answeredOn c x.trace ++ (droppedOn c x.trace ++ x.state.inbox c) := by
      rw [← List.append_assoc]
      exact hboth.trans (congrArg (· ++ x.state.inbox c) hgone.symm)
    exact Line.source_prefix hall hpushed ((pushedOn_sublist c x.trace).nodup hpushes.nodup)
  · exact (hpushes.sorted u).sublist hsent

theorem sender_answered_in_order_first : ∃ x : Traced (State Unit) Delivery,
    sentOn 0 0 x.trace = [0, 1] ∧ answeredOn 0 x.trace = [0] ∧
      (((answeredOn 0 x.trace).filter fun m => m ∈ sentOn 0 0 x.trace) <+: sentOn 0 0 x.trace ∧
        (sentOn 0 0 x.trace).Pairwise (· < ·)) := by
  have hrun : ∃ x : Traced (State Unit) Delivery,
      Reachable (Delivering inlineConfig acceptAll) (Traced.Start (· = State.init)) x ∧
        sentOn 0 0 x.trace = [0, 1] ∧ answeredOn 0 x.trace = [0] :=
    ⟨_, Reachable.play answerFirst (.start (Traced.new_start rfl)) rfl, rfl, rfl⟩
  obtain ⟨x, hreach, hsent, hanswered⟩ := hrun
  exact ⟨x, hsent, hanswered, sender_answered_in_order hreach 0 0⟩

end Libxv
