/-
The replies of a connection.

A connection starts as an empty line, and `Pipeline.lean` has shown that every instruction
is a move of it.  So in every run of every configuration, as long as the connection is open,
its `write_buffer` has been given the replies to its first requests, in the order of the
requests; and to all of them if no message is left.
-/
import Libxv.Proofs.Service.Pipeline

namespace Libxv

open Function Transition

variable {P : Type} {cfg : Config} {ctl : EpollCtl} {s : State P} {user : UserCode P} {c : Nat}

/-- Nothing has happened to the connection yet. -/
structure State.Untouched (c : Nat) (s : State P) : Prop where
  received : (s.conns c).received = []
  appended : (s.conns c).appended = []
  messages : ∀ m, s.live m = true → (s.msgs m).conn ≠ c

theorem State.Untouched.requests (h : s.Untouched c) : s.requests user c = [] := by
  unfold State.requests
  rw [h.received]
  rfl

/-- What a run keeps in which `user` is followed on connection `c`. -/
structure State.Sequenced (user : UserCode P) (cfg : Config) (c : Nat) (s : State P) : Prop where
  routed : s.Routed cfg c
  responded : s.Responded user c
  reads : user.Reads (s.conns c)
  fresh : s.owner c = none → s.Untouched c
  ordered : ∀ t, s.owner c = some t → (s.conns c).conn.status = .opened →
    Line.Ordered (user.reply (s.conns c).conn.handle) (s.line user cfg c t)

/-! ### The read side -/

theorem State.accept_self (s : State P) (fd : Nat) (handle : Handle) (mem : Nat → UInt8) :
    (s.accept fd handle mem).conns s.nextConn =
      { conn := xvConnectionInit fd handle s.nextConn s.nextConn mem, userRefs := 0, received := [],
        appended := [], deleted := 0, fdClosed := 0, freed := 0 } := update_self ..

theorem UserCode.Reads.new (fd : Nat) (handle : Handle) (mem : Nat → UInt8) :
    user.Reads ((s.accept fd handle mem).conns s.nextConn) := by
  rw [State.accept_self]
  exact ⟨xvBufferInit_wf _ _, rfl⟩

/-- The read side is what the chunks make it, whatever a thread does. -/
theorem UserCode.Reads.step (h : user.Reads (s.conns c)) {a : Agent} {act : Act P}
    {next : State P} {pc' : Pc P} (hok : user.Follows c s (.act a act))
    (hinstr : Instr cfg ctl s a (s.pc a) act next pc') :
    user.Reads ((next.goto a pc').conns c) := by
  have hquiet := h.instr hinstr
  generalize hpc : s.pc a = pc at hinstr
  cases hinstr
  case accept t fd handle mem ht hfd =>
    by_cases hc : c = s.nextConn
    · subst hc
      exact .new fd handle mem
    · exact (hquiet (fun hnew => absurd hnew hc) (by simp)).1
  case readBack t fd c' out decoded conn chunks hslot halive hread
      | readClose t fd c' out decoded conn chunks hslot halive hread =>
    exact (h.receive hpc hok hslot hread).1
  case request t fd c' out decoded conn chunks request hslot halive hread =>
    refine (h.receive hpc hok hslot hread).1.congr ?_ ?_ ?_
    · exact update_same (s.receive c' conn chunks).conns c' _
        (fun conn : Connection => conn.conn.readBuffer) (by rfl) c
    · exact update_same (s.receive c' conn chunks).conns c' _
        (fun conn : Connection => conn.conn.handle) (by rfl) c
    · exact update_same (s.receive c' conn chunks).conns c' _ Connection.received (by rfl) c
  all_goals exact (hquiet (fun _ => by simp) (by simp)).1

/-! ### Before a connection is adopted -/

/-- Chunks come from the slots of a loop. -/
theorem Instr.received_eq {a : Agent} {pc pc' : Pc P} {act : Act P} {next : State P}
    (h : Instr cfg ctl s a pc act next pc')
    (hc : c = s.nextConn → ∀ fd handle mem, act ≠ .accept fd handle mem)
    (hslot : ∀ t fd, ((s.io t).loop.slot fd).readIo ≠ some c) :
    (next.conns c).received = (s.conns c).received := by
  have hquiet := h.readSide_eq hc
  cases h
  case readBack t fd c' out decoded conn chunks hslot' halive hread
      | readClose t fd c' out decoded conn chunks hslot' halive hread =>
    have hne : c ≠ c' := fun hc => hslot t fd (hc ▸ hslot')
    exact congrArg Connection.received (update_of_ne hne ..)
  case request t fd c' out decoded conn chunks request hslot' halive hread =>
    have hne : c ≠ c' := fun hc => hslot t fd (hc ▸ hslot')
    simp [State.xvMessageInit, State.addRef, State.setConn, State.receive, hne]
  all_goals exact (hquiet (by simp)).2

/-- A message is made for the connection that is read, or the one a user thread sends to. -/
theorem Instr.made_cases {a : Agent} {pc pc' : Pc P} {act : Act P} {next : State P}
    (h : Instr cfg ctl s a pc act next pc') {m : Nat} (hm : m < next.nextMsg) :
    m < s.nextMsg ∨ (∃ t fd, ((s.io t).loop.slot fd).readIo = some (next.msgs m).conn) ∨
      pc.calls = some (next.msgs m).conn := by
  have hnew : ∀ (mid : State P) (c : Nat) (request response : Option P), ¬ m < mid.nextMsg →
      m < mid.nextMsg + 1 → ((mid.xvMessageInit c request response).msgs m).conn = c := by
    intro mid c request response hold hnew
    obtain rfl : m = mid.nextMsg := by omega
    simp [State.xvMessageInit, State.addRef, State.setConn]
  by_cases hold : m < s.nextMsg
  · exact Or.inl hold
  refine Or.inr ?_
  cases h
  case request t fd c' out decoded conn chunks request hslot halive hread =>
    refine Or.inl ⟨t, fd, ?_⟩
    rw [hnew (s.receive c' conn chunks) c' request none hold hm]
    exact hslot
  case sendInit u c' package =>
    refine Or.inr ?_
    rw [hnew s c' none package hold hm]
    rfl
  all_goals exact absurd hm hold

theorem State.Sequenced.instr_untouched (h : s.Sequenced user cfg c) (hsound : s.Sound)
    {a : Agent} {act : Act P} {next : State P} {pc' : Pc P}
    (hinstr : Instr cfg ctl s a (s.pc a) act next pc') (howner : s.owner c = none) :
    (next.goto a pc').Untouched c := by
  obtain ⟨hreceived, happended, hlive⟩ := h.fresh howner
  have hslot : ∀ t fd, ((s.io t).loop.slot fd).readIo ≠ some c := fun t fd hslot =>
    absurd (howner.symm.trans (hsound.affine.slots t fd c (Or.inl hslot))) (by simp)
  have hconn : (next.conns c).received = [] ∧ (next.conns c).appended = [] := by
    by_cases hnew : c = s.nextConn ∧ ∃ fd handle mem, act = .accept fd handle mem
    · obtain ⟨rfl, fd, handle, mem, rfl⟩ := hnew
      generalize s.pc a = pc at hinstr
      cases hinstr
      rw [State.accept_self]
      exact ⟨rfl, rfl⟩
    · have hold : c = s.nextConn → ∀ fd handle mem, act ≠ .accept fd handle mem :=
        fun hc fd handle mem hact => hnew ⟨hc, fd, handle, mem, hact⟩
      refine ⟨(hinstr.received_eq hold hslot).trans hreceived, ?_⟩
      rcases (hinstr.connStep hold).appended_cases with hsame | ⟨m, origin, hpc, hm⟩
      · exact hsame.trans happended
      · exact absurd hm (hlive m (hsound.owned.held (by rw [hpc]; rfl)).1)
  refine ⟨hconn.1, hconn.2, fun m hm hc => ?_⟩
  rcases hinstr.made_cases (State.lt_of_live hm) with hold | ⟨t, fd, hread⟩ | hcalls
  · exact hlive m (hinstr.live_before hold hm) ((hinstr.msg_conn hold).symm.trans hc)
  · exact hslot t fd (hc ▸ hread)
  · exact h.routed.calls a (hc ▸ hcalls)

/-! ### Every run -/

/-- Nothing is inside the line of a connection without live messages. -/
theorem State.line_inside (hsound : s.Sound) (hlive : ∀ m, s.live m = true → (s.msgs m).conn ≠ c)
    (t : Nat) : (s.line user cfg c t).inside = [] := by
  refine State.waiting_eq_nil fun m hm => hlive m ?_
  obtain ⟨p, hp⟩ := State.mem_lane hm
  exact hsound.owned.placed.live hp

/-- An instruction moves the line of a connection; before that it is empty. -/
theorem State.Sequenced.instr (h : s.Sequenced user cfg c) (hsound : s.Sound) {a : Agent}
    {act : Act P} {next : State P} {pc' : Pc P} (hok : user.Follows c s (.act a act))
    (hinstr : Instr cfg ctl s a (s.pc a) act next pc') (hafter : (next.goto a pc').Sound) :
    (next.goto a pc').Sequenced user cfg c where
  routed := h.routed.instr hsound hok hinstr
  responded := h.responded.instr hsound h.routed hok hinstr
  reads := h.reads.step hok hinstr
  fresh := by
    intro hnone
    cases hbefore : s.owner c with
    | none => exact h.instr_untouched hsound hinstr hbefore
    | some t =>
        have hmono : next.owner c = some t := hsound.adopted.owner_mono hinstr hbefore
        exact absurd (hmono.symm.trans hnone) (by simp)
  ordered := by
    intro t howner hopen
    cases hbefore : s.owner c with
    | none =>
        have huntouched := h.instr_untouched hsound hinstr hbefore
        exact .empty huntouched.requests (State.line_inside hafter huntouched.messages t)
          huntouched.appended
    | some t' =>
        have hc : c < s.nextConn := hsound.adopted.known c t' hbefore
        obtain rfl : t' = t :=
          Option.some.inj ((hsound.adopted.owner_mono hinstr hbefore).symm.trans howner)
        have hopened := hinstr.status_before hc hopen
        show Line.Ordered (user.reply (next.conns c).conn.handle) _
        rw [(hinstr.kept hc).handle]
        exact (hinstr.line_move hsound h.routed h.responded h.reads hbefore hok hopened).ordered
          (h.ordered t' hbefore hopened)

theorem State.Sequenced.refs (h : s.Sequenced user cfg c) {next : State P}
    (hsame : s.SameButRefs next) : next.Sequenced user cfg c := by
  obtain ⟨refCount, userRefs, hconn⟩ := hsame.conns c
  have hlive : ∀ m, next.live m = s.live m := fun m => by
    unfold State.live
    rw [hsame.nextMsg, hsame.msgs]
  refine ⟨h.routed.refs hsame, h.responded.refs hsame, ?_, ?_, ?_⟩
  · rw [hconn]
    exact h.reads.congr rfl rfl rfl
  · intro hnone
    obtain ⟨hreceived, happended, hmessages⟩ := h.fresh ((hsame.owner c).symm.trans hnone)
    refine ⟨?_, ?_, fun m hm => ?_⟩
    · rw [hconn]
      exact hreceived
    · rw [hconn]
      exact happended
    · rw [hlive] at hm
      rw [hsame.msgs]
      exact hmessages m hm
  · intro t howner hopen
    have hlane : next.lane cfg t = s.lane cfg t := by
      simp only [State.lane, hsame.pc, hsame.contents]
    have hline : next.line user cfg c t = s.line user cfg c t := by
      simp only [State.line, State.requests, State.waiting, hlane, hsame.msgs, hconn]
    rw [hline]
    rw [hconn] at hopen ⊢
    exact h.ordered t ((hsame.owner c).symm.trans howner) hopen

theorem State.Sequenced.step (h : s.Sequenced user cfg c) (hsound : s.Sound) {label : Label P}
    {s' : State P} (hok : user.Follows c s label) (hstep : s.step cfg ctl label = some s') :
    s'.Sequenced user cfg c := by
  have hafter := hsound.step hstep
  rcases State.step_split hstep with ⟨a, act, next, pc, rfl, -, hinstr, rfl⟩ | hsame
  · exact h.instr hsound hok hinstr hafter
  · exact h.refs hsame

theorem State.Sequenced.init : (State.init : State P).Sequenced user cfg c where
  routed := .init
  responded := .init
  reads := ⟨xvBufferInit_wf _ _, rfl⟩
  fresh := fun _ => ⟨rfl, rfl, fun m hm => absurd (State.lt_of_live hm) (Nat.not_lt_zero m)⟩
  ordered := fun _ h => absurd h nofun

theorem State.sequenced (h : Reach (State.step cfg ctl) (user.Follows c) (· = State.init) s) :
    s.Sound ∧ s.Sequenced user cfg c :=
  ⟨State.sound h,
    State.invariant h .init fun _ _ _ hsound hs hok hstep => hs.step hsound hok hstep⟩

/-- In every run an open connection has been given the replies to its first requests. -/
theorem State.replies_prefix (h : Reach (State.step cfg ctl) (user.Follows c) (· = State.init) s)
    (hopen : (s.conns c).conn.status = .opened) :
    ∃ answered, answered <+: s.requests user c ∧
      (s.conns c).appended = answered.flatMap (user.reply (s.conns c).conn.handle) := by
  obtain ⟨hsound, hseq⟩ := State.sequenced h
  cases howner : s.owner c with
  | none => exact ⟨[], List.nil_prefix, (hseq.fresh howner).appended⟩
  | some t =>
      obtain ⟨answered, hrequests, hout⟩ := hseq.ordered t howner hopen
      exact ⟨answered, ⟨_, hrequests.symm⟩, hout⟩

/-- Without messages left it has been given all replies. -/
theorem State.replies_eq (h : Reach (State.step cfg ctl) (user.Follows c) (· = State.init) s)
    (hopen : (s.conns c).conn.status = .opened)
    (hdone : ∀ m, s.live m = true → (s.msgs m).conn ≠ c) :
    (s.conns c).appended =
      (s.requests user c).flatMap (user.reply (s.conns c).conn.handle) := by
  obtain ⟨hsound, hseq⟩ := State.sequenced h
  cases howner : s.owner c with
  | none =>
      rw [(hseq.fresh howner).requests, (hseq.fresh howner).appended]
      rfl
  | some t => exact (hseq.ordered t howner hopen).out_eq (State.line_inside hsound hdone t)

end Libxv
