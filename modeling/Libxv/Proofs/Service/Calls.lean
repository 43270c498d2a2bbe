/-
Who makes the calls on a connection, and when.

`Calls` lists the places of an io thread at which it makes a call on a connection, with what
is known of the connection there; `State.calls_some` says that a step makes no other.
-/
import Libxv.Service.Calls
import Libxv.Proofs.Service.Responses

namespace Libxv

open Function Transition

variable {P : Type} {cfg : Config} {ctl : EpollCtl} {s : State P}

/-- At `pc`, io thread `t` makes this call on connection `c`. -/
inductive Calls (cfg : Config) (s : State P) (t : Nat) : Pc P → Nat → Call → Prop
  | onConnect {c : Nat} (hset : (s.conns c).conn.handle.onConnect = true) :
      Calls cfg s t (.addConnection c) c .onConnect
  | assign {c : Nat} (hone : cfg.ioThreadCount = 1) : Calls cfg s t (.assign c) c .adopt
  | adopt {c : Nat} : Calls cfg s t (.adopt c) c .adopt
  | decode {fd c : Nat} (hslot : ((s.io t).loop.slot fd).readIo = some c)
      (hopen : (s.conns c).conn.status = .opened) : Calls cfg s t .poll c .decode
  | encode {m : Nat} {origin : Origin} : Calls cfg s t (.respond m origin) (s.msgs m).conn .encode
  | onDisconnect {c : Nat} {resume : Resume} (hopen : (s.conns c).conn.status = .opened) :
      Calls cfg s t (.close c resume) c .onDisconnect
  | closeFree {c : Nat} {resume : Resume} : Calls cfg s t (.closeFree c resume) c .release
  | freeReturned {c : Nat} : Calls cfg s t (.freeReturned c) c .release

theorem Status.opened_of_ne {status : Status} (h : status ≠ .closed) : status = .opened := by
  cases status with
  | opened => rfl
  | closed => exact absurd rfl h

theorem State.readCalls_some {c : Nat} {out : ReadOut} {called : Nat × Call}
    (h : s.readCalls c out = some called) :
    called = (c, .decode) ∧ (s.conns c).conn.status = .opened := by
  cases hstatus : (s.conns c).conn.status with
  | opened =>
      simp only [State.readCalls] at h
      split at h
      · simp only [Option.ite_none_right_eq_some, Option.some.injEq] at h
        exact ⟨h.2.symm, rfl⟩
      · simp at h
      · simp at h
  | closed => simp [State.readCalls, Libxv.onConnectionRead, hstatus] at h

theorem State.ioCalls_some {t : Nat} {pc : Pc P} {act : Act P} {called : Nat × Call}
    (h : s.ioCalls cfg t pc act = some called) : Calls cfg s t pc called.1 called.2 := by
  unfold State.ioCalls at h
  split at h
  · simp only [Option.ite_none_right_eq_some, Option.some.injEq] at h
    obtain ⟨hset, rfl⟩ := h
    exact .onConnect hset
  · simp only [Option.ite_none_right_eq_some, Option.some.injEq] at h
    obtain ⟨hone, rfl⟩ := h
    exact .assign hone
  · rw [← Option.some.inj h]
    exact .adopt
  · split at h
    · simp at h
    · rename_i c hslot
      obtain ⟨rfl, hopen⟩ := State.readCalls_some h
      exact .decode hslot hopen
  · simp only [Option.ite_none_right_eq_some, Option.some.injEq] at h
    obtain ⟨-, rfl⟩ := h
    exact .encode
  · simp only [Option.ite_none_right_eq_some, Option.some.injEq] at h
    obtain ⟨⟨hopen, -⟩, rfl⟩ := h
    exact .onDisconnect (Status.opened_of_ne hopen)
  · rw [← Option.some.inj h]
    exact .closeFree
  · rw [← Option.some.inj h]
    exact .freeReturned
  · simp at h

/-- **What a step can call.** -/
theorem State.calls_some {label : Label P} {e : Event} (h : s.calls cfg label = some e) :
    ∃ t act, label = .act (.io t) act ∧ e.agent = .io t ∧
      Calls cfg s t (s.pc (.io t)) e.conn e.call := by
  unfold State.calls at h
  split at h
  · rename_i t act
    simp only [Option.map_eq_some_iff] at h
    obtain ⟨called, hcalled, rfl⟩ := h
    exact ⟨t, act, rfl, rfl, State.ioCalls_some hcalled⟩
  all_goals simp at h

/-- A call is on a new connection in the thread's hands, or on one that belongs to it. -/
theorem Calls.newcomer_or_owned (hsound : s.Sound) {t c : Nat} {call : Call}
    (h : Calls cfg s t (s.pc (.io t)) c call) :
    (s.pc (.io t)).adopts = some c ∨ s.owner c = some t := by
  have hserving := hsound.affine.serving (.io t) c
  generalize s.pc (.io t) = pc at h hserving
  have howned : pc.serves s.msgs = some c → s.owner c = some t := by
    intro hserves
    obtain ⟨t', ht', howner⟩ := hserving hserves
    rwa [Agent.io.inj ht']
  cases h with
  | onConnect _ | assign _ | adopt => exact Or.inl rfl
  | decode hslot _ => exact Or.inr (hsound.affine.slots t _ c (Or.inl hslot))
  | encode | onDisconnect _ | closeFree | freeReturned => exact Or.inr (howned rfl)

theorem Calls.known (hsound : s.Sound) {t c : Nat} {call : Call}
    (h : Calls cfg s t (s.pc (.io t)) c call) : c < s.nextConn := by
  rcases h.newcomer_or_owned hsound with hadopts | howner
  · exact (hsound.adopted.lt_of_adopts hadopts).1
  · exact hsound.adopted.known c t howner

/-! ### What a recorded run is -/

/-- A recorded step is a step, and puts down at most the call it makes. -/
theorem Recorded.step_some {x x' : Recorded P} {label : Label P}
    (h : Recorded.step cfg ctl x label = some x') :
    x.state.step cfg ctl label = some x'.state ∧
      x'.trace = x.trace ++ (x.state.calls cfg label).toList := traced_some h

theorem Recorded.mem_trace {x x' : Recorded P} {label : Label P} {e : Event}
    (h : Recorded.step cfg ctl x label = some x') (he : e ∈ x'.trace) :
    e ∈ x.trace ∨ x.state.calls cfg label = some e := by
  rw [(Recorded.step_some h).2, List.mem_append, Option.mem_toList] at he
  exact he

theorem Recorded.sound {x : Recorded P}
    (h : Reachable (Recorded.step cfg ctl) Recorded.Start x) : x.state.Sound :=
  State.sound (Reach.untraced h)

/-- Connections are numbered in the order they are accepted. -/
theorem State.step_nextConn_le {label : Label P} {s' : State P}
    (h : s.step cfg ctl label = some s') : s.nextConn ≤ s'.nextConn := by
  rcases State.step_split h with ⟨a, act, next, pc, -, -, hinstr, rfl⟩ | hsame
  · exact hinstr.nextConn_le
  · exact Nat.le_of_eq hsame.nextConn.symm

/-- What a step leaves of a connection. -/
theorem State.step_kept {label : Label P} {s' : State P} (h : s.step cfg ctl label = some s')
    {c : Nat} (hc : c < s.nextConn) : (s.conns c).conn.Kept (s'.conns c).conn := by
  rcases State.step_split h with ⟨a, act, next, pc, -, -, hinstr, rfl⟩ | hsame
  · exact hinstr.kept hc
  · obtain ⟨refCount, userRefs, hconn⟩ := hsame.conns c
    rw [hconn]
    exact ⟨rfl, rfl, rfl, rfl⟩

/-- Calls are made on connections that have been accepted. -/
theorem Recorded.conn_lt {x : Recorded P}
    (h : Reachable (Recorded.step cfg ctl) Recorded.Start x) :
    ∀ e ∈ x.trace, e.conn < x.state.nextConn := by
  refine h.invariant_along (I := fun x => ∀ e ∈ x.trace, e.conn < x.state.nextConn)
    (fun x hx => by rw [hx.trace]; simp) ?_
  intro x label x' hreach hlt _ hstep e he
  refine Nat.lt_of_lt_of_le ?_ (State.step_nextConn_le (Recorded.step_some hstep).1)
  rcases Recorded.mem_trace hstep he with hold | hnew
  · exact hlt e hold
  · obtain ⟨t, act, -, -, hcalls⟩ := State.calls_some hnew
    exact hcalls.known (Recorded.sound hreach)

end Libxv
