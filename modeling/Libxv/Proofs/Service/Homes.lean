/-
The io thread a connection is made for.

`on_new_connection` picks an io thread from the fd alone, and everything that happens to the
connection afterwards happens there: the hand-off queue it is put in, the loop its ios are
started on, the callbacks of its handle, its close and its release.  With more than one io
thread that is never the leader, and so the connection table, which the leader fills, is
emptied by the others.
-/
import Libxv.Proofs.Service.Calls

namespace Libxv

open Function Transition

variable {P : Type} {cfg : Config} {ctl : EpollCtl} {s : State P}

/-- The index of the io thread that `on_new_connection` gives a connection on `fd`. -/
def Config.home (cfg : Config) (fd : Nat) : Nat :=
  if cfg.ioThreadCount = 1 then 0 else fd % (cfg.ioThreadCount - 1) + 1

def State.home (cfg : Config) (s : State P) (c : Nat) : Nat := cfg.home (s.conns c).conn.fd

theorem Config.home_one (h : cfg.ioThreadCount = 1) (fd : Nat) : cfg.home fd = 0 := if_pos h

theorem Config.home_many (h : cfg.ioThreadCount ≠ 1) (fd : Nat) :
    1 ≤ cfg.home fd ∧ cfg.home fd ≤ cfg.ioThreadCount - 1 := by
  have hpos := cfg.ioPos
  have hlt : fd % (cfg.ioThreadCount - 1) < cfg.ioThreadCount - 1 := Nat.mod_lt _ (by omega)
  unfold home
  rw [if_neg h]
  omega

/-- The leader is a connection's own thread only where it is the only one. -/
theorem Config.home_eq_zero {fd : Nat} : cfg.home fd = 0 ↔ cfg.ioThreadCount = 1 := by
  constructor
  · intro hzero
    by_contra hne
    have hpos := (Config.home_many hne fd).1
    omega
  · exact fun hone => Config.home_one hone fd

/-- Before its adoption a connection is on its way to its thread, and afterwards it is there. -/
structure State.Homed (cfg : Config) (s : State P) : Prop where
  accepting : ∀ a c, s.pc a = .addConnection c ∨ s.pc a = .assign c → a = .io 0
  adopting : ∀ a c, s.pc a = .adopt c → a = .io (s.home cfg c)
  queued : ∀ t c, c ∈ (s.io t).connQueue → t = s.home cfg c
  owned : ∀ c t, s.owner c = some t → t = s.home cfg c

/-! ### One instruction -/

/-- How a connection comes into a hand-off queue. -/
theorem Instr.connQueue_mem {a : Agent} {pc pc' : Pc P} {act : Act P} {next : State P}
    (h : Instr cfg ctl s a pc act next pc') {t c : Nat} (hc : c ∈ (next.io t).connQueue) :
    c ∈ (s.io t).connQueue ∨ (pc = .assign c ∧ t = s.home cfg c) := by
  have hsame : (next.io t).connQueue = (s.io t).connQueue →
      c ∈ (s.io t).connQueue ∨ (pc = .assign c ∧ t = s.home cfg c) := fun heq => Or.inl (heq ▸ hc)
  cases h
  case assignOther t' c' index hmany hindex =>
    by_cases ht : t = index
    · subst ht
      simp only [State.pushConn, update_self, List.mem_append, List.mem_singleton] at hc
      rcases hc with hold | rfl
      · exact Or.inl hold
      · refine Or.inr ⟨rfl, ?_⟩
        unfold State.home Config.home
        rw [if_neg hmany]
        exact hindex
    · exact hsame (congrArg IoThread.connQueue (update_of_ne ht ..))
  case addConnPop t' c' rest hqueue =>
    by_cases ht : t = t'
    · subst ht
      simp only [State.popConn, update_self] at hc
      exact Or.inl (List.mem_of_mem_tail hc)
    · exact hsame (congrArg IoThread.connQueue (update_of_ne ht ..))
  case entry | close | respond | write | assignSelf | sendConn | addConnRead | adopt | taskPush
      | sendPush | returnPop | returnRead | sendSignal | taskSend =>
    exact hsame (update_same s.io _ _ IoThread.connQueue (by rfl) t)
  all_goals exact hsame rfl

/-- How a connection gets its owner. -/
theorem Instr.owner_cases {a : Agent} {pc pc' : Pc P} {act : Act P} {next : State P}
    (h : Instr cfg ctl s a pc act next pc') {c : Nat} (hc : c < s.nextConn) :
    next.owner c = s.owner c ∨ ∃ t, a = .io t ∧ next.owner c = some t ∧
      ((pc = .assign c ∧ cfg.ioThreadCount = 1) ∨ pc = .adopt c) := by
  by_cases hadopts : pc.adopts = some c
  · cases h
    case assignSelf t c' hone =>
      obtain rfl : c' = c := Option.some.inj hadopts
      exact Or.inr ⟨t, rfl, by rw [State.adopt_owner, if_pos rfl], Or.inl ⟨rfl, hone⟩⟩
    case adopt t c' =>
      obtain rfl : c' = c := Option.some.inj hadopts
      exact Or.inr ⟨t, rfl, by rw [State.adopt_owner, if_pos rfl], Or.inr rfl⟩
    case addConnection | assignOther | work | interrupt => exact Or.inl rfl
    all_goals cases hadopts
  · exact Or.inl ((h.connStep_of_lt hc).owner_cases.resolve_right hadopts)

theorem State.Homed.instr (h : s.Homed cfg) (hsound : s.Sound) {a : Agent} {act : Act P}
    {next : State P} {pc' : Pc P} (hinstr : Instr cfg ctl s a (s.pc a) act next pc') :
    (next.goto a pc').Homed cfg := by
  have hhome : ∀ {c : Nat}, c < s.nextConn → next.home cfg c = s.home cfg c := fun hc =>
    congrArg cfg.home (hinstr.kept hc).fd
  have hother : ∀ {b : Agent}, b ≠ a → (next.goto a pc').pc b = s.pc b := fun hb => by
    rw [State.goto_pc_of_ne _ _ hb, hinstr.pc_eq]
  have hadopts : ∀ {c : Nat}, (s.pc a).adopts = some c → c < s.nextConn := fun hc =>
    (hsound.adopted.lt_of_adopts hc).1
  refine ⟨?_, ?_, ?_, ?_⟩
  · intro b c hb
    by_cases hba : b = a
    · subst hba
      rw [State.goto_pc_self] at hb
      have hnew : pc'.adopts = some c := by rcases hb with rfl | rfl <;> rfl
      rcases hinstr.adopts_cases hnew with ⟨hzero, -, -⟩ | ⟨hpc, -⟩ | ⟨t, rest, -, rfl, -⟩
      · exact hzero
      · exact h.accepting b c (Or.inl hpc)
      · rcases hb with hb | hb <;> simp at hb
    · rw [hother hba] at hb
      exact h.accepting b c hb
  · intro b c hb
    by_cases hba : b = a
    · subst hba
      rw [State.goto_pc_self] at hb
      subst hb
      rcases hinstr.adopts_cases rfl with ⟨-, hpc, -⟩ | ⟨-, hpc⟩ | ⟨t, rest, rfl, -, hqueue⟩
      · simp at hpc
      · simp at hpc
      · have hmem : c ∈ (s.io t).connQueue := hqueue ▸ List.mem_cons_self
        have hlt := (hsound.adopted.placed.live (p := .queued t) hmem).1
        show Agent.io t = .io (next.home cfg c)
        rw [hhome hlt, ← h.queued t c hmem]
    · rw [hother hba] at hb
      have hlt := (hsound.adopted.lt_of_adopts (a := b) (c := c) (by rw [hb]; rfl)).1
      show b = .io (next.home cfg c)
      rw [hhome hlt]
      exact h.adopting b c hb
  · intro t c hc
    show t = next.home cfg c
    rcases hinstr.connQueue_mem hc with hold | ⟨hpc, ht⟩
    · rw [hhome (hsound.adopted.placed.live (p := .queued t) hold).1]
      exact h.queued t c hold
    · rw [hhome (hadopts (by rw [hpc]; rfl))]
      exact ht
  · intro c t hc
    show t = next.home cfg c
    have hc : next.owner c = some t := hc
    have hlt : c < s.nextConn := by
      rcases hinstr.conns_cases ((hsound.adopted.instr hsound.owned.resting hinstr).known c t hc)
        with hlt | ⟨rfl, -, fd, handle, mem, rfl⟩
      · exact hlt
      · exact absurd hc (by simp [State.owner, State.accept, xvConnectionInit])
    rw [hhome hlt]
    rcases hinstr.owner_cases hlt with hsame | ⟨t', rfl, howner, ⟨hpc, hone⟩ | hpc⟩
    · exact h.owned c t (hsame.symm.trans hc)
    · obtain rfl : t' = t := Option.some.inj (howner.symm.trans hc)
      rw [Agent.io.inj (h.accepting _ c (Or.inr hpc))]
      exact (Config.home_one hone _).symm
    · obtain rfl : t' = t := Option.some.inj (howner.symm.trans hc)
      exact Agent.io.inj (h.adopting _ c hpc)

theorem State.Homed.refs (h : s.Homed cfg) {next : State P} (hsame : s.SameButRefs next) :
    next.Homed cfg := by
  have hhome : ∀ c, next.home cfg c = s.home cfg c := by
    intro c
    obtain ⟨refCount, userRefs, hconn⟩ := hsame.conns c
    unfold State.home
    rw [hconn]
  refine ⟨?_, ?_, ?_, ?_⟩
  · intro a c
    rw [hsame.pc]
    exact h.accepting a c
  · intro a c
    rw [hsame.pc, hhome]
    exact h.adopting a c
  · intro t c
    rw [hsame.io, hhome]
    exact h.queued t c
  · intro c t
    rw [hsame.owner, hhome]
    exact h.owned c t

theorem State.Homed.step (h : s.Homed cfg) (hsound : s.Sound) {label : Label P} {s' : State P}
    (hstep : s.step cfg ctl label = some s') : s'.Homed cfg := by
  rcases State.step_split hstep with ⟨a, act, next, pc, -, -, hinstr, rfl⟩ | hsame
  · exact h.instr hsound hinstr
  · exact h.refs hsame

theorem State.Homed.init : (State.init : State P).Homed cfg where
  accepting := fun a c h => by cases a <;> rcases h with h | h <;> cases h
  adopting := fun a c h => by cases a <;> cases h
  queued := fun t c h => absurd h List.not_mem_nil
  owned := fun c t h => absurd h nofun

theorem State.homed (h : Reachable (State.step cfg ctl) (· = State.init) s) : s.Homed cfg :=
  State.invariant h .init fun _ _ _ hsound hhomed _ hstep => hhomed.step hsound hstep

/-! ### The connection table -/

/--
**Only additions to the table are the leader's**: whenever a thread changes the connection
table, it is `io_threads[0]` exactly when that is the only io thread, or when the change is an
addition.
-/
theorem leader_table_iff (h : Reachable (State.step cfg ctl) (· = State.init) s) {a : Agent}
    (hpc : (s.pc a).changesTable = true) :
    a = .io 0 ↔ cfg.ioThreadCount = 1 ∨ ∃ c, s.pc a = .addConnection c := by
  have hsound := State.sound h
  have hhomed := State.homed h
  cases hat : s.pc a <;> rw [hat] at hpc
  case addConnection c =>
    have hleader := hhomed.accepting a c (Or.inl hat)
    exact ⟨fun _ => Or.inr ⟨c, rfl⟩, fun _ => hleader⟩
  case closeDel c resume =>
    obtain ⟨t, rfl, howner⟩ := hsound.affine.serving a c (by rw [hat]; rfl)
    have ht := hhomed.owned c t howner
    constructor
    · intro hzero
      rw [Agent.io.inj hzero] at ht
      exact Or.inl (Config.home_eq_zero.mp ht.symm)
    · rintro (hone | ⟨c', hadd⟩)
      · rw [ht]
        exact congrArg Agent.io (Config.home_one hone _)
      · simp at hadd
  all_goals cases hpc

/-- One io thread deletes its connection itself. -/
theorem leader_table_iff_one :
    ∃ s : State Unit, s.pc (.io 0) = .closeDel 0 .poll ∧
      ((.io 0 : Agent) = .io 0 ↔
        inlineConfig.ioThreadCount = 1 ∨ ∃ c, s.pc (.io 0) = .addConnection c) := by
  have hreach : ∃ s : State Unit, s.pc (.io 0) = .closeDel 0 .poll ∧
      Reachable (State.step inlineConfig acceptAll) (· = State.init) s :=
    ⟨_, rfl, Reachable.play (acceptOne ++ readEof) (.start rfl) rfl⟩
  obtain ⟨s, hpc, h⟩ := hreach
  exact ⟨s, hpc, leader_table_iff h (by rw [hpc]; rfl)⟩

/-- Two io threads and no workers. -/
def followerConfig : Config := { ioThreadCount := 2, workerThreadCount := 0, ioPos := by decide }

/-- The leader accepts a connection on fd 5, and the follower adopts it. -/
def acceptAndHandOff : List (Label P) :=
  goes (.io 1) 1 ++ acceptOne ++ goes (.io 0) 1 ++ .act (.io 1) .addConnReady :: goes (.io 1) 5

/-- The follower finds the peer gone and has come to the deletion. -/
def closeOnFollower : List (Label P) :=
  acceptAndHandOff ++ .act (.io 1) (.read 5 .eof ⟨[], 0, none⟩) :: goes (.io 1) 2

/-- The follower is about to delete its connection from the table. -/
theorem follower_deletes :
    ∃ s : State Unit, Reachable (State.step followerConfig acceptAll) (· = State.init) s ∧
      (s.pc (.io 1)).changesTable = true ∧ s.pc (.io 1) = .closeDel 0 .poll ∧
      ∃ s', s.step followerConfig acceptAll (.act (.io 1) .go) = some s' ∧
        s.table.slots 5 = some 0 ∧ s'.table.slots 5 = none := by
  have hrun : ∃ s : State Unit,
      Transition.play (State.step followerConfig acceptAll) .init closeOnFollower = some s ∧
      s.pc (.io 1) = .closeDel 0 .poll ∧ s.table.slots 5 = some 0 ∧ s.table.setsize = 1024 ∧
      (s.conns 0).conn.fd = 5 ∧ s.safe (.io 1) = true := ⟨_, rfl, rfl, rfl, rfl, rfl, rfl⟩
  obtain ⟨s, hplay, hpc, hslot, hsize, hfd, hsafe⟩ := hrun
  have hreach : Reachable (State.step followerConfig acceptAll) (· = State.init) s :=
    Reachable.play closeOnFollower (.start rfl) hplay
  have hchanges : (s.pc (.io 1)).changesTable = true := by
    rw [hpc]
    rfl
  refine ⟨s, hreach, hchanges, hpc, (s.delConnection 0).goto (.io 1) (.closeFd 0 .poll), ?_,
    hslot, ?_⟩
  · simp [State.step, State.program, Agent.runs, followerConfig, hsafe, hpc, ioStep,
      ioThreadEntry, xvConnectionClose]
  · simp [State.goto, State.delConnection, xvServiceDelConnection, hsize, hfd]

/-! ### What happens where -/

/-- A connection that has not reached its thread: the leader has it, or it is in the hand-off
queue of its thread or has just been taken out. -/
def State.OnWay (cfg : Config) (s : State P) (c : Nat) : Prop :=
  s.pc (.io 0) = .addConnection c ∨ s.pc (.io 0) = .assign c ∨
    c ∈ (s.io (s.home cfg c)).connQueue ∨ s.pc (.io (s.home cfg c)) = .adopt c

/-- The threads that have adopted a connection. -/
def Recorded.adopters (x : Recorded P) (c : Nat) : List Agent :=
  (x.trace.filter fun e => e.conn = c ∧ e.call = .adopt).map Event.agent

/-- Every connection is confined to its thread. -/
structure Recorded.Confined (cfg : Config) (x : Recorded P) : Prop where
  /-- It is adopted there, once, or on its way there. -/
  adopted : ∀ c, c < x.state.nextConn →
    (x.state.owner c = some (x.state.home cfg c) ∧ x.adopters c = [.io (x.state.home cfg c)]) ∨
      (x.state.owner c = none ∧ x.adopters c = [] ∧ x.state.OnWay cfg c)
  /-- No other loop watches its ios. -/
  loops : ∀ t fd c, ((x.state.io t).loop.slot fd).readIo = some c ∨
    ((x.state.io t).loop.slot fd).writeIo = some c → t = x.state.home cfg c
  /-- Nothing but `on_connect` is called anywhere else. -/
  calls : ∀ e ∈ x.trace, e.call ≠ .onConnect → e.agent = .io (x.state.home cfg e.conn)

theorem State.Homed.onWay (h : s.Homed cfg) (hsound : s.Sound) {c : Nat} (hc : c < s.nextConn)
    (hnone : s.owner c = none) : s.OnWay cfg c := by
  obtain ⟨p, hp⟩ := hsound.adopted.placed.placed (m := c) ⟨hc, hnone⟩
  cases p with
  | held a =>
      have hadopts : (s.pc a).adopts = some c := by simpa [State.newcomers] using hp
      cases hat : s.pc a <;> rw [hat] at hadopts
      case addConnection c' =>
        obtain rfl : c' = c := Option.some.inj hadopts
        rw [h.accepting a c' (Or.inl hat)] at hat
        exact Or.inl hat
      case assign c' =>
        obtain rfl : c' = c := Option.some.inj hadopts
        rw [h.accepting a c' (Or.inr hat)] at hat
        exact Or.inr (Or.inl hat)
      case adopt c' =>
        obtain rfl : c' = c := Option.some.inj hadopts
        rw [h.adopting a c' hat] at hat
        exact Or.inr (Or.inr (Or.inr hat))
      all_goals cases hadopts
  | queued t =>
      have hmem : c ∈ (s.io t).connQueue := hp
      refine Or.inr (Or.inr (Or.inl ?_))
      rwa [← h.queued t c hmem]

/-- Where a call is made. -/
theorem Calls.home (h : s.Homed cfg) (hsound : s.Sound) {t c : Nat} {call : Call}
    (hcalls : Calls cfg s t (s.pc (.io t)) c call) (hne : call ≠ .onConnect) :
    t = s.home cfg c := by
  rcases hcalls.newcomer_or_owned hsound with hadopts | howner
  · have haccepting := h.accepting (.io t) c
    have hadopting := h.adopting (.io t) c
    generalize s.pc (.io t) = pc at hcalls hadopts haccepting hadopting
    cases hcalls with
    | onConnect _ => exact absurd rfl hne
    | assign hone =>
        rw [Agent.io.inj (haccepting (Or.inr rfl))]
        exact (Config.home_one hone _).symm
    | adopt => exact Agent.io.inj (hadopting rfl)
    | decode | encode | onDisconnect | closeFree | freeReturned => cases hadopts
  · exact h.owned c t howner

/-- A step adopts a connection exactly when it gives it an owner. -/
theorem Instr.adopt_call {a : Agent} {act : Act P} {next : State P} {pc' : Pc P}
    (h : Instr cfg ctl s a (s.pc a) act next pc') {c : Nat} (hc : c < s.nextConn) :
    (∃ t, a = .io t ∧ s.calls cfg (.act a act) = some ⟨.io t, c, .adopt⟩ ∧
        next.owner c = some t) ∨
      ((∀ e, s.calls cfg (.act a act) = some e → ¬ (e.conn = c ∧ e.call = .adopt)) ∧
        next.owner c = s.owner c) := by
  rcases h.owner_cases hc with hsame | ⟨t, rfl, howner, hpc⟩
  · by_cases hcall : ∃ e, s.calls cfg (.act a act) = some e ∧ e.conn = c ∧ e.call = .adopt
    · obtain ⟨e, hcalls, rfl, hadopt⟩ := hcall
      obtain ⟨t, act', hlabel, hagent, hat⟩ := State.calls_some hcalls
      obtain ⟨rfl, rfl⟩ : a = .io t ∧ act = act' := by simpa using hlabel
      refine Or.inl ⟨t, rfl, ?_, ?_⟩
      · rw [hcalls, ← hagent, ← hadopt]
      · rw [hadopt] at hat
        generalize s.pc (.io t) = pc at h hat
        generalize e.conn = c at hat
        cases hat with
        | assign hone =>
            cases h with
            | assignSelf _ => rw [State.adopt_owner, if_pos rfl]
            | assignOther hmany _ => exact absurd hone hmany
        | adopt =>
            cases h with
            | adopt => rw [State.adopt_owner, if_pos rfl]
    · exact Or.inr ⟨fun e he hboth => hcall ⟨e, he, hboth⟩, hsame⟩
  · refine Or.inl ⟨t, rfl, ?_, howner⟩
    rcases hpc with ⟨hpc, hone⟩ | hpc
    · rw [hpc] at h
      cases h <;> simp [State.calls, State.ioCalls, hpc, hone]
    · rw [hpc] at h
      cases h
      simp [State.calls, State.ioCalls, hpc]

theorem Recorded.adopters_adopt {x x' : Recorded P} {a : Agent} {c : Nat}
    (htrace : x'.trace = x.trace ++ [⟨a, c, .adopt⟩]) : x'.adopters c = x.adopters c ++ [a] := by
  unfold Recorded.adopters
  rw [htrace, List.filter_append, List.map_append]
  simp

theorem Recorded.adopters_other {x x' : Recorded P} {e : Option Event} {c : Nat}
    (htrace : x'.trace = x.trace ++ e.toList)
    (he : ∀ x, e = some x → ¬ (x.conn = c ∧ x.call = .adopt)) : x'.adopters c = x.adopters c := by
  have hnone : e.toList.filter (fun e => e.conn = c ∧ e.call = .adopt) = [] := by
    rw [List.filter_eq_nil_iff]
    intro x hx
    simpa using he x (Option.mem_toList.mp hx)
  unfold Recorded.adopters
  rw [htrace, List.filter_append, hnone, List.append_nil]

/-- Nobody has adopted a connection that is not there. -/
theorem Recorded.adopters_none {x : Recorded P} (h : ∀ e ∈ x.trace, e.conn < x.state.nextConn)
    {c : Nat} (hc : x.state.nextConn ≤ c) : x.adopters c = [] := by
  unfold Recorded.adopters
  rw [List.map_eq_nil_iff, List.filter_eq_nil_iff]
  intro e he
  have hlt := h e he
  have hne : e.conn ≠ c := by omega
  simp [hne]

/-- Whoever has adopted a connection owns it. -/
theorem Recorded.adopters_eq {x : Recorded P}
    (h : Reachable (Recorded.step cfg ctl) Recorded.Start x) :
    ∀ c, c < x.state.nextConn → x.adopters c = (x.state.owner c).toList.map Agent.io := by
  refine h.invariant_along
    (I := fun x => ∀ c, c < x.state.nextConn → x.adopters c = (x.state.owner c).toList.map Agent.io)
    (fun x hx c hc => absurd hc (by rw [hx.state]; exact Nat.not_lt_zero c)) ?_
  intro x label x' hreach heq _ hstep c hc
  obtain ⟨hstate, htrace⟩ := Recorded.step_some hstep
  have hsound := Recorded.sound hreach
  have hrefs : ∀ next : State P, x.state.SameButRefs next → x'.state = next →
      x.state.calls cfg label = none → x'.adopters c = (x'.state.owner c).toList.map Agent.io := by
    intro next hsame hnext hcalls
    rw [hnext] at hc ⊢
    rw [Recorded.adopters_other htrace (by simp [hcalls]), hsame.owner]
    exact heq c (hsame.nextConn ▸ hc)
  rcases State.step_cases hstate with ⟨a, act, next, pc, rfl, -, -, hinstr, hnext⟩ |
      ⟨c', rfl, -, hnext⟩ | ⟨c', rfl, -, -, hnext⟩
  · rw [hnext] at hc ⊢
    show _ = (next.owner c).toList.map Agent.io
    rcases hinstr.conns_cases hc with hlt | ⟨rfl, -, fd, handle, mem, haccept⟩
    · rcases hinstr.adopt_call hlt with ⟨t, rfl, hcalls, howner⟩ | ⟨hother, howner⟩
      · -- The connection was new, so nobody has adopted it before.
        have hnew : x.state.owner c = none := by
          obtain ⟨t', act', hlabel, -, hat⟩ := State.calls_some hcalls
          obtain ⟨rfl, rfl⟩ : t = t' ∧ act = act' := by simpa using hlabel
          have hadopts : (x.state.pc (.io t)).adopts = some c := by
            generalize x.state.pc (.io t) = pc at hat
            cases hat <;> rfl
          exact (hsound.adopted.lt_of_adopts hadopts).2
        rw [hcalls] at htrace
        rw [Recorded.adopters_adopt htrace, heq c hlt, hnew, howner]
        rfl
      · rw [Recorded.adopters_other htrace hother, heq c hlt, howner]
    · -- The connection has just been accepted.
      have hknown := Recorded.conn_lt hreach
      have hother : ∀ e, x.state.calls cfg (.act a act) = some e →
          ¬ (e.conn = x.state.nextConn ∧ e.call = .adopt) := by
        intro e he hnow
        obtain ⟨hconn, -⟩ := hnow
        obtain ⟨t, act', -, -, hat⟩ := State.calls_some he
        exact absurd (hat.known hsound) (by omega)
      rw [Recorded.adopters_other htrace hother, Recorded.adopters_none hknown (Nat.le_refl _),
        haccept]
      simp [State.owner, State.accept, xvConnectionInit]
  · exact hrefs _ (x.state.incrRef_same c') hnext rfl
  · exact hrefs _ (x.state.decrRef_same c') hnext rfl

theorem Recorded.calls_home {x : Recorded P}
    (h : Reachable (Recorded.step cfg ctl) Recorded.Start x) :
    ∀ e ∈ x.trace, e.call ≠ .onConnect → e.agent = .io (x.state.home cfg e.conn) := by
  refine h.invariant_along
    (I := fun x => ∀ e ∈ x.trace, e.call ≠ .onConnect → e.agent = .io (x.state.home cfg e.conn))
    (fun x hx => by rw [hx.trace]; simp) ?_
  intro x label x' hreach hhome _ hstep e he hne
  have hsound := Recorded.sound hreach
  have hkeep : e.conn < x.state.nextConn → x'.state.home cfg e.conn = x.state.home cfg e.conn :=
    fun hlt => congrArg cfg.home (State.step_kept (Recorded.step_some hstep).1 hlt).fd
  rcases Recorded.mem_trace hstep he with hold | hnew
  · rw [hkeep (Recorded.conn_lt hreach e hold)]
    exact hhome e hold hne
  · obtain ⟨t, act, -, hagent, hcalls⟩ := State.calls_some hnew
    rw [hkeep (hcalls.known hsound), hagent,
      hcalls.home (State.homed (Reach.untraced hreach)) hsound hne]

/--
**Connection affinity**: whatever the number of io threads, a connection is adopted once, by
the io thread its fd names, and keeps it; its ios are started on the loop of that thread only,
and decode, encode, on_disconnect and the release all run there.
-/
theorem connection_affinity {x : Recorded P}
    (h : Reachable (Recorded.step cfg ctl) Recorded.Start x) :
    x.Confined cfg ∧
      (∀ label x', Recorded.step cfg ctl x label = some x' → ∀ c t,
        x.state.owner c = some t → x'.state.owner c = some t) ∧
      (cfg.ioThreadCount = 1 → ∀ fd, cfg.home fd = 0) ∧
      (cfg.ioThreadCount ≠ 1 → ∀ fd, cfg.home fd = fd % (cfg.ioThreadCount - 1) + 1 ∧
        1 ≤ cfg.home fd ∧ cfg.home fd ≤ cfg.ioThreadCount - 1) := by
  have hsound := Recorded.sound h
  have hhomed := State.homed (Reach.untraced h)
  refine ⟨⟨?_, ?_, Recorded.calls_home h⟩, ?_, fun hone fd => Config.home_one hone fd,
    fun hmany fd => ⟨if_neg hmany, Config.home_many hmany fd⟩⟩
  · intro c hc
    have hadopters := Recorded.adopters_eq h c hc
    cases howner : x.state.owner c with
    | none =>
        rw [howner] at hadopters
        exact Or.inr ⟨rfl, hadopters, hhomed.onWay hsound hc howner⟩
    | some t =>
        obtain rfl := hhomed.owned c t howner
        rw [howner] at hadopters
        exact Or.inl ⟨rfl, hadopters⟩
  · intro t fd c hslot
    exact hhomed.owned c t (hsound.affine.slots t fd c hslot)
  · intro label x' hstep c t howner
    rcases State.step_split (Recorded.step_some hstep).1 with
        ⟨a, act, next, pc, -, -, hinstr, hnext⟩ | hrefs
    · rw [hnext]
      exact hsound.adopted.owner_mono hinstr howner
    · rw [hrefs.owner]
      exact howner

/-- A connection that the leader has accepted comes and goes on the follower. -/
theorem connection_affinity_follower :
    ∃ x : Recorded Unit,
      x.trace = [⟨.io 0, 0, .onConnect⟩, ⟨.io 1, 0, .adopt⟩, ⟨.io 1, 0, .onDisconnect⟩,
        ⟨.io 1, 0, .release⟩] ∧
      x.Confined followerConfig ∧
      (∀ label x', Recorded.step followerConfig acceptAll x label = some x' → ∀ c t,
        x.state.owner c = some t → x'.state.owner c = some t) ∧
      (followerConfig.ioThreadCount = 1 → ∀ fd, followerConfig.home fd = 0) ∧
      (followerConfig.ioThreadCount ≠ 1 → ∀ fd,
        followerConfig.home fd = fd % (followerConfig.ioThreadCount - 1) + 1 ∧
        1 ≤ followerConfig.home fd ∧
        followerConfig.home fd ≤ followerConfig.ioThreadCount - 1) := by
  have hrun : ∃ x : Recorded Unit,
      Transition.play (Recorded.step followerConfig acceptAll) Recorded.init
        (closeOnFollower ++ goes (.io 1) 3) = some x ∧
      x.trace = [⟨.io 0, 0, .onConnect⟩, ⟨.io 1, 0, .adopt⟩, ⟨.io 1, 0, .onDisconnect⟩,
        ⟨.io 1, 0, .release⟩] := ⟨_, rfl, rfl⟩
  obtain ⟨x, hplay, htrace⟩ := hrun
  have hreach := Reachable.play _ (.start Recorded.init_start) hplay
  exact ⟨x, htrace, connection_affinity hreach⟩

end Libxv
