/-
Messages come back in the order in which they were pushed.

Seen from one connection the `message_queue` of its io thread is a line: a message that a
worker or a user thread pushes enters behind all others, and the first leaves when
`io_thread_return_message_cb` answers or drops it.  While the connection is open nothing is
dropped, so what has been answered is a prefix of what has been pushed.
-/
import Libxv.Service.Deliveries
import Libxv.Proofs.Service.Responses
import Libxv.Proofs.Service.Pipeline
import Libxv.Proofs.Service.Registered

namespace Libxv

open Function Transition

variable {P : Type} {cfg : Config} {ctl : EpollCtl} {s : State P} {c : Nat}

/-! ### What is on its way to an answer -/

/-- The messages that have come to io thread `t`, the first to be answered first. -/
def State.returning (s : State P) (t : Nat) : List Nat :=
  (s.pc (.io t)).onStage .returned ++ (s.io t).messageQueue

/-- Those of connection `c`. -/
def State.inbox (s : State P) (c : Nat) : List Nat :=
  match s.owner c with
  | none => []
  | some t => (s.returning t).filter fun m => (s.msgs m).conn = c

theorem State.inbox_of_owner {t : Nat} (h : s.owner c = some t) :
    s.inbox c = (s.returning t).filter fun m => (s.msgs m).conn = c := by
  simp [State.inbox, h]

theorem State.inbox_of_none (h : s.owner c = none) : s.inbox c = [] := by
  simp [State.inbox, h]

theorem Pc.onStage_of_none {pc : Pc P} (h : pc.stage = none) (stage : Stage) :
    pc.onStage stage = [] := by
  unfold Pc.onStage
  rw [h]

theorem State.contents_of_returning {t m : Nat} (h : m ∈ s.returning t) :
    ∃ p, m ∈ s.contents p := by
  rcases List.mem_append.mp h with hheld | hqueued
  · exact ⟨.held (.io t),
      by simp [State.contents, Pc.holds_of_stage (Pc.holds_of_onStage hheld)]⟩
  · exact ⟨.messages t, hqueued⟩

theorem State.Sound.lt_of_returning (hsound : s.Sound) {t m : Nat} (h : m ∈ s.returning t) :
    m < s.nextMsg := by
  obtain ⟨p, hp⟩ := State.contents_of_returning h
  exact State.lt_of_live (hsound.owned.placed.live hp)

/-- A message has come to the thread its connection belongs to. -/
theorem State.Sound.owner_of_returning (hsound : s.Sound) {t m : Nat} (h : m ∈ s.returning t) :
    s.owner (s.msgs m).conn = some t := by
  rcases List.mem_append.mp h with hheld | hqueued
  · have hstage := Pc.holds_of_onStage hheld
    have hserves : (s.pc (.io t)).serves s.msgs = some (s.msgs m).conn := by
      cases hpc : s.pc (.io t)
      case respond m' origin => cases origin <;> simp_all [Pc.stage, Pc.serves]
      all_goals simp_all [Pc.stage, Pc.serves]
    obtain ⟨t', ht', howner⟩ := hsound.affine.serving _ _ hserves
    exact Agent.io.inj ht' ▸ howner
  · exact hsound.affine.queued t m hqueued

/-! ### One instruction -/

/-- What an instruction does to the messages on their way to an answer. -/
inductive DeliveryStep (ctl : EpollCtl) (s : State P) (a : Agent) (pc : Pc P) (next : State P)
    (pc' : Pc P) : Option Delivery → Prop
  | push {t m : Nat} (hpush : pc.pushes = some (t, m)) (hnext : next = s.pushMessage t m)
      (ha : ∀ t, a ≠ .io t) (hholds : pc'.holds = none) (hstage : pc'.stage = none) :
      DeliveryStep ctl s a pc next pc' (some (.pushed a (s.msgs m).conn m))
  | answer {t m : Nat} {origin : Origin} {encodes : Bool} {sent : Sent} (ha : a = .io t)
      (hpc : pc = .respond m origin)
      (hsent : ∃ response pieces out, sent = processMessage ctl (s.io t).loop
        (s.conns (s.msgs m).conn).conn (response : Option P) pieces out)
      (hnext : next = (s.markEncoded m encodes).sent t (s.msgs m).conn sent)
      (hstage : pc'.stage = none) :
      DeliveryStep ctl s a pc next pc'
        (some (.answered origin (s.msgs m).conn m sent.encoded sent.accepted))
  | drop {t m : Nat} (ha : a = .io t) (hpc : pc = .returned m)
      (hclosed : (s.conns (s.msgs m).conn).conn.status = .closed)
      (hnext : next = s.xvMessageDestroy m) (hstage : pc'.stage = none) :
      DeliveryStep ctl s a pc next pc' (some (.dropped (s.msgs m).conn m))
  | write {t fd c : Nat} {out : WriteOut} {sent : Sent} (ha : a = .io t) (hpc : pc = .poll)
      (hslot : ((s.io t).loop.slot fd).writeIo = some c)
      (hsent : sent = onConnectionWrite ctl (s.io t).loop (s.conns c).conn out)
      (hnext : next = s.sent t c sent) (hstage : pc'.stage = none) :
      DeliveryStep ctl s a pc next pc' (some (.wrote c sent.accepted))
  | quiet (hreturning : ∀ t, (next.goto a pc').returning t = s.returning t)
      (hpc : ∀ m origin, pc ≠ .respond m origin) : DeliveryStep ctl s a pc next pc' none

theorem State.returning_eq {next : State P} {a : Agent} {pc' : Pc P} (hpc : next.pc = s.pc)
    (hstage : ∀ t, a = .io t → pc'.onStage .returned = (s.pc a).onStage .returned)
    (hqueue : ∀ t, (next.io t).messageQueue = (s.io t).messageQueue) (t : Nat) :
    (next.goto a pc').returning t = s.returning t := by
  unfold State.returning
  congr 1
  · by_cases ha : a = .io t
    · subst ha
      rw [State.goto_pc_self]
      exact hstage t rfl
    · rw [State.goto_pc_of_ne _ _ (Ne.symm ha), hpc]
  · exact hqueue t

theorem Instr.deliveryStep {a : Agent} {act : Act P} {next : State P} {pc' : Pc P}
    (hsound : s.Sound) (hinstr : Instr cfg ctl s a (s.pc a) act next pc') :
    DeliveryStep ctl s a (s.pc a) next pc' (s.deliversAt ctl a (s.pc a) act) := by
  have hreturning : (∀ t, a = .io t → pc'.onStage .returned = (s.pc a).onStage .returned) →
      (∀ t, (next.io t).messageQueue = (s.io t).messageQueue) →
      ∀ t, (next.goto a pc').returning t = s.returning t := State.returning_eq hinstr.pc_eq
  have hrest := hsound.owned.resting
  generalize hpc : s.pc a = pc at hinstr hreturning
  have hquiet : (∀ t, a = .io t → pc'.onStage .returned = pc.onStage .returned) →
      (∀ t, (next.io t).messageQueue = (s.io t).messageQueue) →
      (∀ m origin, pc ≠ .respond m origin) → DeliveryStep ctl s a pc next pc' none :=
    fun hstage hqueue hrespond => .quiet (hreturning hstage hqueue) hrespond
  cases hinstr
  case taskPush i t m | sendPush u t m => exact .push rfl rfl (by simp) rfl rfl
  case respond t m c' origin pieces out sent encodes hc' hsent hencodes =>
    subst hc'
    subst hsent
    refine .answer rfl rfl ⟨_, _, _, rfl⟩ rfl ?_
    split <;> rfl
  case returnedClosed t m hclosed =>
    simp only [State.deliversAt, if_pos hclosed]
    exact .drop rfl rfl hclosed rfl rfl
  case returnedOpen t m hopen =>
    simp only [State.deliversAt, if_neg hopen]
    exact hquiet (fun _ _ => rfl) (fun _ => rfl) (by simp)
  case returnPop t m rest hqueue =>
    refine .quiet (fun t' => ?_) (by simp)
    by_cases ht : t' = t
    · subst ht
      simp [State.returning, State.goto, State.popMessage, hpc, hqueue, Pc.onStage, Pc.stage]
    · simp [State.returning, State.goto, State.popMessage, ht]
  case work i thread hrun hstep =>
    obtain rfl : s.pc (.worker i) = pc := hpc
    rw [hrest i hrun]
    exact .quiet (State.returning_eq rfl (by simp) fun _ => rfl) (by simp)
  case interrupt i thread hrun hstep =>
    obtain rfl : s.pc (.worker i) = pc := hpc
    rw [hrest i hrun]
    exact .quiet (State.returning_eq rfl (by simp) fun _ => rfl) (by simp)
  case closeBusy t c' resume _ | closeFree t c' resume =>
    refine hquiet (fun _ _ => ?_) (fun _ => rfl) (by simp)
    cases resume <;> rfl
  case finish t m origin =>
    refine hquiet (fun _ _ => ?_) (fun _ => rfl) (by simp)
    cases origin <;> rfl
  case write t fd c' out sent hslot halive hsent =>
    simp only [State.deliversAt, hslot, Option.map_some]
    rw [← hsent]
    refine .write rfl rfl hslot hsent rfl ?_
    split <;> rfl
  case request t fd c' out decoded conn chunks request hslot halive hread =>
    refine hquiet (fun _ _ => ?_) (fun _ => rfl) (by simp)
    split <;> rfl
  case entry | close | assignSelf | assignOther | adopt | sendConn | addConnRead | addConnPop
      | returnRead | sendSignal | taskSend =>
    refine hquiet (fun _ _ => rfl) (fun t' => ?_) (by simp)
    exact update_same s.io _ _ IoThread.messageQueue (by rfl) t'
  all_goals exact hquiet (fun _ _ => rfl) (fun _ => rfl) (by simp)

/-! ### The line of a connection -/

/-- The messages of a connection are filtered out of a thread's by what they always say. -/
theorem Instr.filter_conn {a : Agent} {pc pc' : Pc P} {act : Act P} {next : State P}
    (hinstr : Instr cfg ctl s a pc act next pc') {l : List Nat} (hl : ∀ m ∈ l, m < s.nextMsg) :
    (l.filter fun m => (next.msgs m).conn = c) = l.filter fun m => (s.msgs m).conn = c :=
  List.filter_congr fun m hm => by rw [hinstr.msg_conn (hl m hm)]

/-- The messages of a connection are not among those of another thread. -/
theorem State.Sound.filter_returning (hsound : s.Sound) {t : Nat} {l : List Nat}
    (hl : ∀ m ∈ l, m ∈ s.returning t) (howner : s.owner c ≠ some t) :
    (l.filter fun m => (s.msgs m).conn = c) = [] := by
  rw [List.filter_eq_nil_iff]
  intro m hm hmc
  apply howner
  rw [← of_decide_eq_true hmc]
  exact hsound.owner_of_returning (hl m hm)

/-- The messages in `front`, on thread `t`, leave.  A connection that is adopted has had no
message pushed yet. -/
theorem Instr.inbox_eq (hsound : s.Sound) {a : Agent} {act : Act P} {next : State P} {pc' : Pc P}
    (hinstr : Instr cfg ctl s a (s.pc a) act next pc') {t : Nat} {front : List Nat}
    (hreturning : ∀ t', s.returning t' =
      (if t' = t then front else []) ++ (next.goto a pc').returning t') :
    s.inbox c = (front.filter fun m => (s.msgs m).conn = c) ++ (next.goto a pc').inbox c := by
  have hfront : ∀ m ∈ front, m ∈ s.returning t := fun m hm => by
    rw [hreturning t, if_pos rfl]
    exact List.mem_append_left _ hm
  have hback : ∀ t', ∀ m ∈ (next.goto a pc').returning t', m ∈ s.returning t' := fun t' m hm => by
    rw [hreturning t']
    exact List.mem_append_right _ hm
  have hnext : ∀ t', (next.goto a pc').owner c = some t' → (next.goto a pc').inbox c =
      ((next.goto a pc').returning t').filter fun m => (s.msgs m).conn = c := by
    intro t' ht'
    rw [State.inbox_of_owner ht']
    exact hinstr.filter_conn fun m hm => hsound.lt_of_returning (hback t' m hm)
  cases hc : s.owner c with
  | none =>
      have hne : ∀ t', s.owner c ≠ some t' := fun t' => by simp [hc]
      rw [State.inbox_of_none hc, hsound.filter_returning hfront (hne t), List.nil_append]
      cases hc' : (next.goto a pc').owner c with
      | none => exact (State.inbox_of_none hc').symm
      | some t' => rw [hnext t' hc', hsound.filter_returning (hback t') (hne t')]
  | some t' =>
      have hmono : next.owner c = some t' := hsound.adopted.owner_mono hinstr hc
      rw [hnext t' hmono, State.inbox_of_owner hc, hreturning t', List.filter_append]
      congr 1
      by_cases ht : t' = t
      · rw [if_pos ht]
      · rw [if_neg ht, List.filter_nil, hsound.filter_returning hfront]
        exact fun howner => ht (Option.some.inj (hc.symm.trans howner))

/-- A message enters behind all others. -/
theorem State.inbox_push {t m : Nat} {a : Agent} {pc' : Pc P} (ha : ∀ t, a ≠ .io t)
    (howner : s.owner (s.msgs m).conn = some t) :
    ((s.pushMessage t m).goto a pc').inbox c =
      s.inbox c ++ if (s.msgs m).conn = c then [m] else [] := by
  have hreturning : ∀ t', ((s.pushMessage t m).goto a pc').returning t' =
      s.returning t' ++ if t' = t then [m] else [] := by
    intro t'
    have hpc : ((s.pushMessage t m).goto a pc').pc (.io t') = s.pc (.io t') :=
      State.goto_pc_of_ne _ _ (Ne.symm (ha t'))
    unfold State.returning
    rw [hpc, List.append_assoc]
    congr 1
    by_cases ht : t' = t
    · subst ht
      simp [State.goto, State.pushMessage]
    · simp [State.goto, State.pushMessage, ht]
  cases hc : s.owner c with
  | none =>
      have hne : (s.msgs m).conn ≠ c := fun heq => by simp [← heq, howner] at hc
      have hnext : ((s.pushMessage t m).goto a pc').owner c = none := hc
      rw [State.inbox_of_none hnext, State.inbox_of_none hc, if_neg hne, List.append_nil]
  | some t' =>
      have hnext : ((s.pushMessage t m).goto a pc').owner c = some t' := hc
      rw [State.inbox_of_owner hnext, State.inbox_of_owner hc, hreturning t', List.filter_append]
      congr 1
      by_cases hm : (s.msgs m).conn = c
      · have ht : t' = t := by simpa [← hm, howner] using hc.symm
        simp [State.pushMessage, State.goto, hm, ht]
      · by_cases ht : t' = t <;> simp [State.pushMessage, State.goto, hm, ht]

/-- The message in the thread's hands leaves. -/
theorem Instr.returning_leave {t m : Nat} {act : Act P} {next : State P}
    {pc' : Pc P} (hinstr : Instr cfg ctl s (.io t) (s.pc (.io t)) act next pc')
    (hstage : (s.pc (.io t)).stage = some (.returned, m)) (hstage' : pc'.stage = none)
    (hqueue : ∀ t, (next.io t).messageQueue = (s.io t).messageQueue) (t' : Nat) :
    s.returning t' = (if t' = t then [m] else []) ++ (next.goto (.io t) pc').returning t' := by
  have hhand : (s.pc (.io t)).onStage .returned = [m] := by
    unfold Pc.onStage
    rw [hstage]
    exact if_pos rfl
  have hempty := Pc.onStage_of_none hstage' .returned
  by_cases ht : t' = t
  · subst ht
    simp [State.returning, State.goto, hqueue, hhand, hempty]
  · simp [State.returning, State.goto, hqueue, ht, hinstr.pc_eq]

/-! ### The record -/

variable {trace : List Delivery}

theorem pushedOn_append (c : Nat) (l l' : List Delivery) :
    pushedOn c (l ++ l') = pushedOn c l ++ pushedOn c l' := List.filterMap_append

theorem answeredOn_append (c : Nat) (l l' : List Delivery) :
    answeredOn c (l ++ l') = answeredOn c l ++ answeredOn c l' := List.filterMap_append

theorem droppedOn_append (c : Nat) (l l' : List Delivery) :
    droppedOn c (l ++ l') = droppedOn c l ++ droppedOn c l' := List.filterMap_append

theorem encodedOn_append (c : Nat) (l l' : List Delivery) :
    encodedOn c (l ++ l') = encodedOn c l ++ encodedOn c l' := List.flatMap_append

theorem encodedOn_answered (c : Nat) (origin : Origin) (c' m : Nat)
    (bytes accepted : List UInt8) :
    encodedOn c [.answered origin c' m bytes accepted] = if c' = c then bytes else [] := by
  simp [encodedOn]

theorem encodedOn_eq_nil (h : ∀ e ∈ trace, e.conn ≠ c) : encodedOn c trace = [] := by
  unfold encodedOn
  rw [List.flatMap_eq_nil_iff]
  intro e he
  cases e with
  | answered origin c' m bytes accepted => exact if_neg (h _ he)
  | _ => rfl

theorem conn_of_droppedOn (h : droppedOn c trace ≠ []) : ∃ e ∈ trace, e.conn = c := by
  obtain ⟨m, hm⟩ := List.exists_mem_of_ne_nil _ h
  obtain ⟨e, he, hem⟩ := List.mem_filterMap.mp hm
  refine ⟨e, he, ?_⟩
  cases e with
  | dropped c' m' =>
      dsimp only at hem
      split at hem <;> rename_i hc
      · exact hc
      · simp at hem
  | _ => simp at hem

/-- The queue of connection `c`, as a line of messages. -/
def State.deliveryLine (s : State P) (c : Nat) (trace : List Delivery) : Line.View Nat Nat :=
  { entered := pushedOn c trace, inside := s.inbox c,
    out := answeredOn c trace ++ droppedOn c trace }

/-- What the record says of the state. -/
structure State.Delivered (s : State P) (trace : List Delivery) : Prop where
  known : ∀ e ∈ trace, e.conn < s.nextConn
  line : ∀ c, Line.Ordered (fun m => [m]) (s.deliveryLine c trace)
  closed : ∀ c, droppedOn c trace ≠ [] → (s.conns c).conn.status = .closed
  appended : ∀ c, c < s.nextConn → (s.conns c).appended = encodedOn c trace

theorem State.Delivered.init : (State.init : State P).Delivered [] where
  known := fun _ he => absurd he List.not_mem_nil
  line := fun _ => .empty rfl rfl rfl
  closed := fun _ hc => absurd rfl hc
  appended := fun c hc => absurd hc (Nat.not_lt_zero c)

theorem Instr.line_deliver (hsound : s.Sound) (hopened : s.Opened)
    (hdropped : droppedOn c trace ≠ [] → (s.conns c).conn.status = .closed) {a : Agent}
    {act : Act P} {next : State P} {pc' : Pc P}
    (hinstr : Instr cfg ctl s a (s.pc a) act next pc') :
    Line.Move (fun m => [m]) (s.deliveryLine c trace) ((next.goto a pc').deliveryLine c
      (trace ++ (s.deliversAt ctl a (s.pc a) act).toList)) := by
  have hstep := hinstr.deliveryStep hsound
  generalize s.deliversAt ctl a (s.pc a) act = e at hstep
  unfold State.deliveryLine
  rw [pushedOn_append, answeredOn_append, droppedOn_append]
  have hpass : pushedOn c e.toList = [] → answeredOn c e.toList = [] → droppedOn c e.toList = [] →
      (∀ t, (next.goto a pc').returning t = s.returning t) →
      Line.Move (fun m => [m])
        { entered := pushedOn c trace, inside := s.inbox c,
          out := answeredOn c trace ++ droppedOn c trace }
        { entered := pushedOn c trace ++ pushedOn c e.toList,
          inside := (next.goto a pc').inbox c,
          out := answeredOn c trace ++ answeredOn c e.toList ++
            (droppedOn c trace ++ droppedOn c e.toList) } := by
    intro hpushed hanswered hdropped hreturning
    have hsame : ∀ t', s.returning t' =
        (if t' = 0 then [] else []) ++ (next.goto a pc').returning t' :=
      fun t' => by simp [hreturning t']
    have hinbox := hinstr.inbox_eq (c := c) hsound hsame
    refine .pass ?_ (by simpa using hinbox.symm) ?_
    · simp only [hpushed, List.append_nil]
    · simp only [hanswered, hdropped, List.append_nil]
  cases hstep with
  | @push t m hpush hnext ha hholds hstage =>
      subst hnext
      have hinbox : ((s.pushMessage t m).goto a pc').inbox c =
          s.inbox c ++ if (s.msgs m).conn = c then [m] else [] :=
        State.inbox_push ha (hsound.affine.pushing a t m hpush)
      by_cases hm : (s.msgs m).conn = c
      · rw [if_pos hm] at hinbox
        exact .enter m (by simp [pushedOn, hm]) hinbox (by simp [answeredOn, droppedOn])
      · rw [if_neg hm, List.append_nil] at hinbox
        exact .pass (by simp [pushedOn, hm]) hinbox (by simp [answeredOn, droppedOn])
  | @answer t m origin encodes sent ha hpc hsent hnext hstage =>
      subst ha hnext
      have hqueue : ∀ t', (((s.markEncoded m encodes).sent t (s.msgs m).conn sent).io
          t').messageQueue = (s.io t').messageQueue :=
        update_same s.io _ _ IoThread.messageQueue (by rfl)
      cases origin with
      | inline =>
          exact hpass (by simp [pushedOn]) (by simp [answeredOn]) (by simp [droppedOn])
            (State.returning_eq hinstr.pc_eq
              (fun _ _ => by rw [hpc, Pc.onStage_of_none hstage]; rfl) hqueue)
      | returned =>
          have hinbox := hinstr.inbox_eq (c := c) hsound
            (hinstr.returning_leave (m := m) (by rw [hpc]; rfl) hstage hqueue)
          by_cases hm : (s.msgs m).conn = c
          · have hopen : (s.conns c).conn.status = .opened :=
              hopened (.io t) c (by rw [hpc]; exact congrArg some hm)
            have hnone : droppedOn c trace = [] := by
              by_contra hne
              rw [hdropped hne] at hopen
              exact absurd hopen (by decide)
            exact .leave m (by simp [pushedOn]) (by simpa [hm] using hinbox)
              (by simp only [hnone]; simp [answeredOn, droppedOn, hm])
          · exact .pass (by simp [pushedOn]) (by simpa [hm] using hinbox.symm)
              (by simp [answeredOn, droppedOn, hm])
  | @drop t m ha hpc hclosed hnext hstage =>
      subst ha hnext
      have hinbox := hinstr.inbox_eq (c := c) hsound
        (hinstr.returning_leave (m := m) (by rw [hpc]; rfl) hstage fun _ => rfl)
      by_cases hm : (s.msgs m).conn = c
      · exact .leave m (by simp [pushedOn]) (by simpa [hm] using hinbox)
          (by simp [answeredOn, droppedOn, hm])
      · exact .pass (by simp [pushedOn]) (by simpa [hm] using hinbox.symm)
          (by simp [answeredOn, droppedOn, hm])
  | @write t fd c' out sent ha hpc hslot hsent hnext hstage =>
      subst ha hnext
      exact hpass (by simp [pushedOn]) (by simp [answeredOn]) (by simp [droppedOn])
        (State.returning_eq hinstr.pc_eq
          (fun _ _ => by rw [hpc, Pc.onStage_of_none hstage]; rfl)
          (update_same s.io _ _ IoThread.messageQueue (by rfl)))
  | quiet hreturning hpc =>
      exact hpass (by simp [pushedOn]) (by simp [answeredOn]) (by simp [droppedOn]) hreturning

/-- What is appended to `write_buffer` is what the record says. -/
theorem State.Delivered.instr_appended (h : s.Delivered trace) (hsound : s.Sound) {a : Agent}
    {act : Act P} {next : State P} {pc' : Pc P} (hinstr : Instr cfg ctl s a (s.pc a) act next pc')
    (c : Nat) (hc : c < next.nextConn) : (next.conns c).appended =
      encodedOn c (trace ++ (s.deliversAt ctl a (s.pc a) act).toList) := by
  have hstep := hinstr.deliveryStep hsound
  generalize s.deliversAt ctl a (s.pc a) act = e at hstep
  rw [encodedOn_append]
  rcases hinstr.conns_cases hc with hlt | ⟨rfl, -, fd, handle, mem, rfl⟩
  · have happended := (hinstr.connStep_of_lt hlt).appended_cases
    have hsame : (∀ m origin, s.pc a ≠ .respond m origin) →
        (next.conns c).appended = encodedOn c trace := fun hpc => by
      rcases happended with happended | ⟨m, origin, hrespond, -⟩
      · rw [happended]
        exact h.appended c hlt
      · exact absurd hrespond (hpc m origin)
    cases hstep with
    | push hpush hnext ha hholds hstage =>
        rw [hsame fun m origin hpc => by simp [hpc, Pc.pushes] at hpush]
        simp [encodedOn]
    | @answer t m origin encodes sent ha hpc hsent hnext hstage =>
        subst hnext
        rw [← h.appended c hlt, Option.toList_some, encodedOn_answered]
        by_cases hm : (s.msgs m).conn = c
        · simp [State.sent, State.markEncoded, hm]
        · simp [State.sent, State.markEncoded, hm, Ne.symm hm]
    | drop ha hpc hclosed hnext hstage =>
        rw [hsame fun m origin hrespond => by simp [hpc] at hrespond]
        simp [encodedOn]
    | write ha hpc hslot hsent hnext hstage =>
        rw [hsame fun m origin hrespond => by simp [hpc] at hrespond]
        simp [encodedOn]
    | quiet hreturning hpc =>
        rw [hsame hpc]
        simp [encodedOn]
  · have hnone : encodedOn s.nextConn trace = [] :=
      encodedOn_eq_nil fun e he => Nat.ne_of_lt (h.known e he)
    cases hstep with
    | quiet hreturning hpc =>
        rw [hnone]
        simp [State.accept, encodedOn]
    | answer ha hpc hsent hnext hstage =>
        exact absurd (congrArg State.nextConn hnext) (Nat.succ_ne_self _)
    | push hpush hnext ha hholds hstage =>
        exact absurd (congrArg State.nextConn hnext) (Nat.succ_ne_self _)
    | drop ha hpc hclosed hnext hstage =>
        exact absurd (congrArg State.nextConn hnext) (Nat.succ_ne_self _)
    | write ha hpc hslot hsent hnext hstage =>
        exact absurd (congrArg State.nextConn hnext) (Nat.succ_ne_self _)

/-- What is recorded concerns a connection that exists. -/
theorem Instr.delivers_known (hsound : s.Sound) {a : Agent} {act : Act P} {next : State P}
    {pc' : Pc P} (hinstr : Instr cfg ctl s a (s.pc a) act next pc') :
    ∀ e ∈ s.deliversAt ctl a (s.pc a) act, e.conn < s.nextConn := by
  have hstep := hinstr.deliveryStep hsound
  intro e he
  rw [Option.mem_def] at he
  rw [he] at hstep
  cases hstep with
  | push hpush _ _ _ _ => exact hsound.adopted.known _ _ (hsound.affine.pushing a _ _ hpush)
  | answer ha hpc _ _ _ => exact (hsound.lt_of_serves (a := a) (by rw [hpc]; rfl)).1
  | drop ha hpc _ _ _ => exact (hsound.lt_of_serves (a := a) (by rw [hpc]; rfl)).1
  | @write t fd c _ _ _ _ hslot _ _ _ =>
      exact hsound.adopted.known c t (hsound.affine.slots t fd c (Or.inr hslot))

theorem State.Delivered.instr (h : s.Delivered trace) (hsound : s.Sound) (hopened : s.Opened)
    {a : Agent} {act : Act P} {next : State P} {pc' : Pc P}
    (hinstr : Instr cfg ctl s a (s.pc a) act next pc') :
    (next.goto a pc').Delivered (trace ++ (s.deliversAt ctl a (s.pc a) act).toList) := by
  have hstep := hinstr.deliveryStep hsound
  have hnew := hinstr.delivers_known hsound
  refine ⟨?_, ?_, ?_, ?_⟩
  · intro e he
    refine Nat.lt_of_lt_of_le ?_ hinstr.nextConn_le
    rcases List.mem_append.mp he with hold | hlast
    · exact h.known e hold
    · exact hnew e (Option.mem_toList.mp hlast)
  · exact fun c => (hinstr.line_deliver hsound hopened (h.closed c)).ordered (h.line c)
  · intro c hc
    show (next.conns c).conn.status = .closed
    have hlt : c < s.nextConn := by
      obtain ⟨e, he, rfl⟩ := conn_of_droppedOn hc
      rcases List.mem_append.mp he with hold | hlast
      · exact h.known e hold
      · exact hnew e (Option.mem_toList.mp hlast)
    apply hinstr.closed_after hlt
    by_cases hold : droppedOn c trace = []
    · generalize s.deliversAt ctl a (s.pc a) act = e at hstep hc
      rw [droppedOn_append, hold, List.nil_append] at hc
      cases hstep with
      | @drop t m ha hpc hclosed hnext hstage =>
          by_cases hm : (s.msgs m).conn = c
          · exact hm ▸ hclosed
          · exact absurd (by simp [droppedOn, hm]) hc
      | _ => exact absurd (by simp [droppedOn]) hc
    · exact h.closed c hold
  · exact fun c hc => h.instr_appended hsound hinstr c hc

theorem State.SameButRefs.inbox {next : State P} (h : s.SameButRefs next) (c : Nat) :
    next.inbox c = s.inbox c := by
  unfold State.inbox State.returning
  rw [h.owner, h.pc, h.io, h.msgs]

theorem State.Delivered.refs (h : s.Delivered trace) {next : State P}
    (hsame : s.SameButRefs next) : next.Delivered trace := by
  refine ⟨hsame.nextConn ▸ h.known, fun c => ?_, fun c hc => ?_, fun c hc => ?_⟩
  · unfold State.deliveryLine
    rw [hsame.inbox]
    exact h.line c
  · obtain ⟨refCount, userRefs, hconn⟩ := hsame.conns c
    rw [hconn]
    exact h.closed c hc
  · obtain ⟨refCount, userRefs, hconn⟩ := hsame.conns c
    rw [hconn]
    exact h.appended c (hsame.nextConn ▸ hc)

theorem State.delivered {x : Traced (State P) Delivery}
    (h : Reachable (Delivering cfg ctl) (Traced.Start (· = State.init)) x) :
    x.state.Delivered x.trace := by
  refine h.invariant_along (I := fun x => x.state.Delivered x.trace) ?_ ?_
  · intro x hx
    have hstate : x.state = State.init := hx.state
    rw [hstate, hx.trace]
    exact .init
  · intro x label x' hreach hx _ hmove
    obtain ⟨hstep, htrace⟩ := traced_some hmove
    have hrun := Reach.untraced hreach
    rw [htrace]
    rcases State.step_cases hstep with ⟨a, act, next, pc, rfl, -, -, hinstr, hnext⟩ |
        ⟨c, rfl, -, hnext⟩ | ⟨c, rfl, -, -, hnext⟩
    · rw [hnext]
      exact hx.instr (State.sound hrun) (State.opened hrun) hinstr
    · rw [hnext, State.delivers, Option.toList_none, List.append_nil]
      exact hx.refs (x.state.incrRef_same c)
    · rw [hnext, State.delivers, Option.toList_none, List.append_nil]
      exact hx.refs (x.state.decrRef_same c)

end Libxv
