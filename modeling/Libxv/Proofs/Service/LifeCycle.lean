/-
The order of the user's callbacks on one connection.

Many events lead to `decode` and `encode`: read events, write events, messages that come back.
Each of them is cut off by the status, which a close sets before it calls `on_disconnect`: what
`decode` is called on is open, and what is about to be answered stays open because only the
thread that answers could close it.  `on_connect` comes before all of them because the thread
that calls it still has the connection to itself.
-/
import Libxv.Proofs.Service.Calls

namespace Libxv

open Function Transition

variable {P : Type} {cfg : Config} {ctl : EpollCtl} {s : State P}

/-- The call has been made on the connection, by whatever thread. -/
def Called (trace : List Event) (c : Nat) (call : Call) : Prop :=
  ∃ a, (⟨a, c, call⟩ : Event) ∈ trace

/-- What must have been called before, and what must not. -/
structure LifeCycle (handle : Nat → Handle) (before : List Event) (e : Event) : Prop where
  connected : e.call ≠ .onConnect → (handle e.conn).onConnect = true →
    Called before e.conn .onConnect
  once : e.call = .onConnect ∨ e.call = .onDisconnect → ¬ Called before e.conn e.call
  disconnected : e.call = .decode ∨ e.call = .encode → ¬ Called before e.conn .onDisconnect

def State.handle (s : State P) (c : Nat) : Handle := (s.conns c).conn.handle

/-- How the calls so far show in the state. -/
structure Recorded.Tracks (x : Recorded P) : Prop where
  /-- Nothing is called on a connection before it is in the table. -/
  fresh : ∀ a c, x.state.pc a = .addConnection c → ∀ e ∈ x.trace, e.conn ≠ c
  connected : ∀ c, c < x.state.nextConn → (x.state.handle c).onConnect = true →
    (∀ a, x.state.pc a ≠ .addConnection c) → Called x.trace c .onConnect
  closed : ∀ c, Called x.trace c .onDisconnect → (x.state.conns c).conn.status = .closed

theorem Called.mono {trace more : List Event} {c : Nat} {call : Call} (h : Called trace c call) :
    Called (trace ++ more) c call := by
  obtain ⟨a, ha⟩ := h
  exact ⟨a, List.mem_append_left _ ha⟩

/-! ### One step -/

/-- Of the threads that have a connection, one at most is about to put it in the table. -/
theorem State.Sound.addConnection_unique (hsound : s.Sound) {t c : Nat} {call : Call} {a : Agent}
    (hcalls : Calls cfg s t (s.pc (.io t)) c call) (ha : s.pc a = .addConnection c) :
    a = .io t := by
  have hnew := hsound.adopted.lt_of_adopts (a := a) (c := c) (by rw [ha]; rfl)
  rcases hcalls.newcomer_or_owned hsound with hadopts | howner
  · have hplace := hsound.adopted.placed.apart (p := .held a) (q := .held (.io t)) (m := c)
      (by simp [State.newcomers, ha, Pc.adopts]) (by simp [State.newcomers, hadopts])
    exact NewPlace.held.inj hplace
  · cases hnew.2.symm.trans howner

/-- Any call but `on_connect` is on a connection that is in the table. -/
theorem Calls.not_adding (hsound : s.Sound) {t c : Nat} {call : Call}
    (hcalls : Calls cfg s t (s.pc (.io t)) c call) (hne : call ≠ .onConnect) (a : Agent) :
    s.pc a ≠ .addConnection c := by
  intro ha
  obtain rfl := hsound.addConnection_unique hcalls ha
  rw [ha] at hcalls
  cases hcalls with
  | onConnect _ => exact hne rfl

/-- The new call keeps to the life cycle. -/
theorem Recorded.Tracks.lifeCycle {x : Recorded P} (h : x.Tracks) (hsound : x.state.Sound)
    (hopened : x.state.Opened) {t : Nat} {e : Event}
    (hcalls : Calls cfg x.state t (x.state.pc (.io t)) e.conn e.call) :
    LifeCycle x.state.handle x.trace e where
  connected := fun hne hset =>
    h.connected e.conn (hcalls.known hsound) hset (hcalls.not_adding hsound hne)
  once := by
    have hfresh := h.fresh (.io t)
    have hclosed := h.closed e.conn
    rintro (hcall | hcall) hbefore
    · rw [hcall] at hcalls hbefore
      generalize x.state.pc (.io t) = pc at hcalls hfresh
      generalize e.conn = c at hcalls hbefore
      cases hcalls with
      | onConnect _ =>
          obtain ⟨a, ha⟩ := hbefore
          exact hfresh c rfl _ ha rfl
    · rw [hcall] at hcalls hbefore
      have hstatus := hclosed hbefore
      generalize x.state.pc (.io t) = pc at hcalls
      generalize e.conn = c at hcalls hstatus
      cases hcalls with
      | onDisconnect hopen => exact absurd (hopen.symm.trans hstatus) (by simp)
  disconnected := by
    intro hcall hbefore
    have hstatus := h.closed e.conn hbefore
    have hanswers := hopened (.io t) e.conn
    generalize x.state.pc (.io t) = pc at hcalls hanswers
    generalize e.conn = c at hcalls hstatus hanswers
    rcases hcall with hcall | hcall <;> rw [hcall] at hcalls
    · cases hcalls with
      | decode _ hopen => exact absurd (hopen.symm.trans hstatus) (by simp)
    · cases hcalls with
      | encode => exact absurd ((hanswers rfl).symm.trans hstatus) (by simp)

theorem Recorded.Tracks.step_fresh {x x' : Recorded P} {label : Label P} (h : x.Tracks)
    (hreach : Reachable (Recorded.step cfg ctl) Recorded.Start x)
    (hstep : Recorded.step cfg ctl x label = some x') (a : Agent) (c : Nat)
    (ha : x'.state.pc a = .addConnection c) : ∀ e ∈ x'.trace, e.conn ≠ c := by
  have hsound := Recorded.sound hreach
  intro e he
  by_cases hold : x.state.pc a = .addConnection c
  · rcases Recorded.mem_trace hstep he with hbefore | hnew
    · exact h.fresh a c hold e hbefore
    · rintro rfl
      obtain ⟨t, act, rfl, -, hcalls⟩ := State.calls_some hnew
      obtain rfl := hsound.addConnection_unique hcalls hold
      -- The thread that had the connection has moved on.
      obtain ⟨next, pc, -, hinstr, hnext⟩ := State.step_instr (Recorded.step_some hstep).1
      rw [hnext, State.goto_pc_self] at ha
      subst ha
      rw [hold] at hinstr
      cases hinstr
  · have hnew : c = x.state.nextConn := by
      rcases State.step_split (Recorded.step_some hstep).1 with
          ⟨b, act, next, pc, -, -, hinstr, hnext⟩ | hrefs
      · rw [hnext] at ha
        by_cases hab : a = b
        · subst hab
          rw [State.goto_pc_self] at ha
          subst ha
          rcases hinstr.adopts_cases rfl with ⟨-, -, hc⟩ | ⟨-, hpc⟩ | ⟨t, rest, -, hpc, -⟩
          · exact hc.symm
          · simp at hpc
          · simp at hpc
        · rw [State.goto_pc_of_ne _ _ hab, hinstr.pc_eq] at ha
          exact absurd ha hold
      · rw [hrefs.pc] at ha
        exact absurd ha hold
    have hlt : e.conn < x.state.nextConn := by
      rcases Recorded.mem_trace hstep he with hbefore | hcall
      · exact Recorded.conn_lt hreach e hbefore
      · obtain ⟨t, act, -, -, hcalls⟩ := State.calls_some hcall
        exact hcalls.known hsound
    omega

/-- Where `on_connect` is called. -/
theorem Instr.onConnect_call (hresting : s.Resting) {a : Agent} {act : Act P} {next : State P}
    {pc' : Pc P} {c : Nat} (h : Instr cfg ctl s a (s.pc a) act next pc')
    (hpc : s.pc a = .addConnection c)
    (hset : (s.handle c).onConnect = true) :
    s.calls cfg (.act a act) = some ⟨a, c, .onConnect⟩ := by
  have hset : (s.conns c).conn.handle.onConnect = true := hset
  rw [hpc] at h
  cases h
  case addConnection t garbage table htable => simp [State.calls, State.ioCalls, hpc, hset]
  case work i thread hrun hstep | interrupt i thread hrun hstep =>
    exact absurd ((hresting i hrun).symm.trans hpc) (by simp)

theorem Recorded.Tracks.step_connected {x x' : Recorded P} {label : Label P} (h : x.Tracks)
    (hresting : x.state.Resting) (hstep : Recorded.step cfg ctl x label = some x') (c : Nat)
    (hc : c < x'.state.nextConn)
    (hset : (x'.state.handle c).onConnect = true)
    (hpast : ∀ a, x'.state.pc a ≠ .addConnection c) : Called x'.trace c .onConnect := by
  obtain ⟨hstate, htrace⟩ := Recorded.step_some hstep
  rw [htrace]
  have hold : c < x.state.nextConn → (∀ a, x.state.pc a ≠ .addConnection c) →
      Called (x.trace ++ (x.state.calls cfg label).toList) c .onConnect := by
    intro hlt hbefore
    have hkept := (State.step_kept hstate hlt).handle
    refine (h.connected c hlt ?_ hbefore).mono
    unfold State.handle at hset ⊢
    rwa [← hkept]
  rcases State.step_split hstate with ⟨a, act, next, pc, rfl, -, hinstr, hnext⟩ | hrefs
  · rw [hnext] at hc hpast
    rcases hinstr.conns_cases hc with hlt | ⟨rfl, rfl, -⟩
    · by_cases hadding : x.state.pc a = .addConnection c
      · have hset : (x.state.handle c).onConnect = true := by
          have hkept := (State.step_kept hstate hlt).handle
          unfold State.handle at hset ⊢
          rwa [← hkept]
        rw [hinstr.onConnect_call hresting hadding hset]
        exact ⟨a, List.mem_append_right _ (List.mem_singleton_self _)⟩
      · refine hold hlt fun b hb => ?_
        have hba : b ≠ a := by
          rintro rfl
          exact hadding hb
        refine hpast b ?_
        rw [State.goto_pc_of_ne _ _ hba, hinstr.pc_eq]
        exact hb
    · exact absurd (State.goto_pc_self ..) (hpast a)
  · rw [hrefs.nextConn] at hc
    exact hold hc (hrefs.pc ▸ hpast)

theorem Recorded.Tracks.step_closed {x x' : Recorded P} {label : Label P} (h : x.Tracks)
    (hreach : Reachable (Recorded.step cfg ctl) Recorded.Start x)
    (hstep : Recorded.step cfg ctl x label = some x') (c : Nat)
    (hcalled : Called x'.trace c .onDisconnect) : (x'.state.conns c).conn.status = .closed := by
  obtain ⟨b, hb⟩ := hcalled
  have hlt : c < x.state.nextConn := by
    rcases Recorded.mem_trace hstep hb with hbefore | hcall
    · exact Recorded.conn_lt hreach _ hbefore
    · obtain ⟨t, act, -, -, hcalls⟩ := State.calls_some hcall
      exact hcalls.known (Recorded.sound hreach)
  have hstays : (x.state.conns c).conn.status = .closed →
      (x'.state.conns c).conn.status = .closed := by
    intro hclosed
    rcases State.step_split (Recorded.step_some hstep).1 with
        ⟨a, act, next, pc, -, -, hinstr, hnext⟩ | hrefs
    · rw [hnext]
      cases hstatus : (next.conns c).conn.status with
      | closed => exact hstatus
      | opened => exact absurd ((hinstr.status_before hlt hstatus).symm.trans hclosed) (by simp)
    · obtain ⟨refCount, userRefs, hconn⟩ := hrefs.conns c
      rw [hconn]
      exact hclosed
  rcases Recorded.mem_trace hstep hb with hbefore | hcall
  · exact hstays (h.closed c ⟨b, hbefore⟩)
  · obtain ⟨t, act, rfl, -, hcalls⟩ := State.calls_some hcall
    obtain ⟨next, pc, -, hinstr, hnext⟩ := State.step_instr (Recorded.step_some hstep).1
    rw [hnext]
    show (next.conns c).conn.status = .closed
    generalize x.state.pc (.io t) = pc at hcalls hinstr
    cases hcalls with
    | onDisconnect _ => exact hinstr.status_closed

theorem Recorded.Tracks.start {x : Recorded P} (h : Recorded.Start x) : x.Tracks where
  fresh := by rw [h.trace]; exact fun _ _ _ => by simp
  connected := fun c hc => absurd hc (by rw [h.state]; exact Nat.not_lt_zero c)
  closed := by
    intro c hnow
    obtain ⟨a, ha⟩ := hnow
    rw [h.trace] at ha
    exact absurd ha List.not_mem_nil

theorem Recorded.tracks {x : Recorded P}
    (h : Reachable (Recorded.step cfg ctl) Recorded.Start x) : x.Tracks :=
  h.invariant_along (fun _ hx => .start hx) fun _ _ _ hreach htracks _ hstep =>
    ⟨htracks.step_fresh hreach hstep,
      htracks.step_connected (Recorded.sound hreach).owned.resting hstep,
      htracks.step_closed hreach hstep⟩

/--
**The life cycle of a connection**: `on_connect` is called once, as soon as the connection is
in the table and before anything else; `on_disconnect` is called at most once; and after it
neither `decode` nor `encode` is called on the connection again.
-/
theorem callback_life_cycle {x : Recorded P}
    (h : Reachable (Recorded.step cfg ctl) Recorded.Start x) :
    Justified (LifeCycle x.state.handle) x.trace ∧
      ∀ c, c < x.state.nextConn → (x.state.handle c).onConnect = true →
        (∀ a, x.state.pc a ≠ .addConnection c) → Called x.trace c .onConnect := by
  refine ⟨?_, (Recorded.tracks h).connected⟩
  refine h.invariant_along (I := fun x => Justified (LifeCycle x.state.handle) x.trace)
    (fun x hx => hx.trace ▸ .nil) ?_
  intro x label x' hreach hjust _ hstep
  have hsound := Recorded.sound hreach
  have hjust' : Justified (LifeCycle x.state.handle) x'.trace := by
    rw [(Recorded.step_some hstep).2]
    refine hjust.append fun e he => ?_
    obtain ⟨t, act, -, -, hcalls⟩ := State.calls_some he
    exact (Recorded.tracks hreach).lifeCycle hsound (State.opened (Reach.untraced hreach)) hcalls
  refine hjust'.mono fun before e he hlife => ⟨?_, hlife.once, hlife.disconnected⟩
  have hlt : e.conn < x.state.nextConn := by
    rcases Recorded.mem_trace hstep he with hbefore | hcall
    · exact Recorded.conn_lt hreach e hbefore
    · obtain ⟨t, act, -, -, hcalls⟩ := State.calls_some hcall
      exact hcalls.known hsound
  have hkept := (State.step_kept (Recorded.step_some hstep).1 hlt).handle
  have hconnected := hlife.connected
  unfold State.handle at hconnected ⊢
  rwa [hkept]

/-- A message is queued when the connection is closed by the peer; it comes back afterwards. -/
def closeUnderMessage : List (Label Unit) :=
  acceptOne ++ [readRequest Unit (byteChunk 7) (), .act (.io 0) (.process (some ())),
      .act (.io 0) (.respond [⟨1, [8], by decide⟩] (.wrote 1))] ++
    goes (.io 0) 1 ++ sendOne ++ readEof ++ popReturned ++ goes (.io 0) 1

theorem callback_life_cycle_eof :
    ∃ x : Recorded Unit,
      x.trace = [⟨.io 0, 0, .onConnect⟩, ⟨.io 0, 0, .adopt⟩, ⟨.io 0, 0, .decode⟩,
        ⟨.io 0, 0, .encode⟩, ⟨.io 0, 0, .onDisconnect⟩] ∧
      Justified (LifeCycle x.state.handle) x.trace ∧
        ∀ c, c < x.state.nextConn → (x.state.handle c).onConnect = true →
          (∀ a, x.state.pc a ≠ .addConnection c) → Called x.trace c .onConnect := by
  have hreach : ∃ x : Recorded Unit,
      x.trace = [⟨.io 0, 0, .onConnect⟩, ⟨.io 0, 0, .adopt⟩, ⟨.io 0, 0, .decode⟩,
        ⟨.io 0, 0, .encode⟩, ⟨.io 0, 0, .onDisconnect⟩] ∧
      Reachable (Recorded.step inlineConfig acceptAll) Recorded.Start x :=
    ⟨_, rfl, Reachable.play closeUnderMessage (.start Recorded.init_start) rfl⟩
  obtain ⟨x, htrace, h⟩ := hreach
  exact ⟨x, htrace, callback_life_cycle h⟩

end Libxv
