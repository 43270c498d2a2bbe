/-
An object under a mutex.

Every operation takes the mutex, runs its code on the object step by step, and releases the
mutex.  If the code of each operation, run alone, comes to its end and does to the object what
the specification says (`Code.Meets`), then to its callers each operation is one step: whatever
calls and returns any number of threads see, they could have seen of the atomic object
(`atomic`), and every call can come to its return (`returns`).
-/
import Libxv.Lib.Simulation
import Mathlib.Logic.Function.Basic

namespace Monitor

open Transition Function

/-- The code of the operations on an object: `run` makes the next step at a place, given what
the world answers, and either goes on at the next place or comes to the result. -/
structure Code (Obj Op Place World Ret : Type) where
  enter : Op → Place
  run : Obj → Place → World → Option (Obj × (Place ⊕ Ret))

variable {Obj Op Place World Ret Thread S : Type}

/-- Where a thread is. -/
inductive Phase (Op Place Ret : Type)
  | idle
  /-- At the mutex. -/
  | waiting (op : Op)
  | inside (op : Op) (place : Place)
  /-- About to release the mutex. -/
  | leaving (op : Op) (ret : Ret)
  | returning (op : Op) (ret : Ret)

/-- The thread has the mutex. -/
def Phase.holds : Phase Op Place Ret → Bool
  | .inside _ _ | .leaving _ _ => true
  | .idle | .waiting _ | .returning _ _ => false

/-- The object, the thread that has the mutex, and where each thread is. -/
structure Sys (Thread Obj Op Place Ret : Type) where
  obj : Obj
  owner : Option Thread
  phase : Thread → Phase Op Place Ret

inductive Label (Thread Op World : Type)
  | call (t : Thread) (op : Op)
  | lock (t : Thread)
  | run (t : Thread) (w : World)
  | unlock (t : Thread)
  | back (t : Thread)

/-- What a thread sees of an operation. -/
inductive Event (Thread Op Ret : Type)
  | call (t : Thread) (op : Op)
  | back (t : Thread) (op : Op) (ret : Ret)
  deriving DecidableEq

section systems

variable [DecidableEq Thread]

def Sys.goto (s : Sys Thread Obj Op Place Ret) (t : Thread) (phase : Phase Op Place Ret) :
    Sys Thread Obj Op Place Ret := { s with phase := update s.phase t phase }

def Sys.step (code : Code Obj Op Place World Ret) (s : Sys Thread Obj Op Place Ret) :
    Label Thread Op World → Option (Sys Thread Obj Op Place Ret)
  | .call t op =>
      match s.phase t with
      | .idle => some (s.goto t (.waiting op))
      | _ => none
  | .lock t =>
      match s.phase t, s.owner with
      | .waiting op, none =>
          some { s.goto t (.inside op (code.enter op)) with owner := some t }
      | _, _ => none
  | .run t w =>
      match s.phase t with
      | .inside op place =>
          match code.run s.obj place w with
          | none => none
          | some (obj, .inl place) => some { s.goto t (.inside op place) with obj := obj }
          | some (obj, .inr ret) => some { s.goto t (.leaving op ret) with obj := obj }
      | _ => none
  | .unlock t =>
      match s.phase t with
      | .leaving op ret => some { s.goto t (.returning op ret) with owner := none }
      | _ => none
  | .back t =>
      match s.phase t with
      | .returning _ _ => some (s.goto t .idle)
      | _ => none

def Sys.emits (s : Sys Thread Obj Op Place Ret) :
    Label Thread Op World → Option (Event Thread Op Ret)
  | .call t op => some (.call t op)
  | .back t =>
      match s.phase t with
      | .returning op ret => some (.back t op ret)
      | _ => none
  | .lock _ | .run _ _ | .unlock _ => none

/-- Nobody has called anything yet. -/
def Sys.Start (obj : Obj) (s : Sys Thread Obj Op Place Ret) : Prop :=
  s = { obj := obj, owner := none, phase := fun _ => .idle }

/-! ### The atomic object -/

/-- An operation of the atomic object before and after its one step. -/
inductive Stage (Op Ret : Type)
  | idle
  | called (op : Op)
  | done (op : Op) (ret : Ret)

structure Atomic (Thread Op Ret S : Type) where
  obj : S
  stage : Thread → Stage Op Ret

inductive AtomicLabel (Thread Op : Type)
  | call (t : Thread) (op : Op)
  | act (t : Thread)
  | back (t : Thread)

def Atomic.goto (a : Atomic Thread Op Ret S) (t : Thread) (stage : Stage Op Ret) :
    Atomic Thread Op Ret S := { a with stage := update a.stage t stage }

/-- Between call and return an operation is done in one step, as `spec` says. -/
def Atomic.step (spec : Op → S → S × Ret) (a : Atomic Thread Op Ret S) :
    AtomicLabel Thread Op → Option (Atomic Thread Op Ret S)
  | .call t op =>
      match a.stage t with
      | .idle => some (a.goto t (.called op))
      | _ => none
  | .act t =>
      match a.stage t with
      | .called op => some { a.goto t (.done op (spec op a.obj).2) with obj := (spec op a.obj).1 }
      | _ => none
  | .back t =>
      match a.stage t with
      | .done _ _ => some (a.goto t .idle)
      | _ => none

def Atomic.emits (a : Atomic Thread Op Ret S) : AtomicLabel Thread Op → Option (Event Thread Op Ret)
  | .call t op => some (.call t op)
  | .back t =>
      match a.stage t with
      | .done op ret => some (.back t op ret)
      | _ => none
  | .act _ => none

def Atomic.Start (obj : S) (a : Atomic Thread Op Ret S) : Prop :=
  a = { obj := obj, stage := fun _ => .idle }

end systems

/-! ### What has to be shown of the code -/

/-- From a place on, with nobody else at the object, the code comes to its end after finitely
many steps, whatever the world answers, and `Q` holds of the result. -/
inductive Code.Returns (code : Code Obj Op Place World Ret) (fits : Obj → Place → World → Prop)
    (Q : Obj → Ret → Prop) : Obj → Place → Prop
  | step {obj : Obj} {place : Place} (hfits : ∃ w, fits obj place w)
      (hrun : ∀ w, fits obj place w → code.run obj place w ≠ none)
      (hnext : ∀ w obj' place', fits obj place w →
        code.run obj place w = some (obj', .inl place') → Returns code fits Q obj' place')
      (hdone : ∀ w obj' ret, fits obj place w →
        code.run obj place w = some (obj', .inr ret) → Q obj' ret) :
      Returns code fits Q obj place

/-- A step that goes on to one place. -/
theorem Code.Returns.next {code : Code Obj Op Place World Ret} {fits : Obj → Place → World → Prop}
    {Q : Obj → Ret → Prop} {obj obj' : Obj} {place place' : Place} (hfits : ∃ w, fits obj place w)
    (hrun : ∀ w, code.run obj place w = some (obj', .inl place'))
    (h : code.Returns fits Q obj' place') : code.Returns fits Q obj place := by
  refine .step hfits (fun w _ => by simp [hrun w]) (fun w obj'' place'' _ h' => ?_) ?_
  · simp only [hrun w, Option.some.injEq, Prod.mk.injEq, Sum.inl.injEq] at h'
    obtain ⟨rfl, rfl⟩ := h'
    exact h
  · intro w obj'' ret _ h'
    simp [hrun w] at h'

/-- The last step. -/
theorem Code.Returns.done {code : Code Obj Op Place World Ret} {fits : Obj → Place → World → Prop}
    {Q : Obj → Ret → Prop} {obj obj' : Obj} {place : Place} {ret : Ret}
    (hfits : ∃ w, fits obj place w)
    (hrun : ∀ w, code.run obj place w = some (obj', .inr ret)) (h : Q obj' ret) :
    code.Returns fits Q obj place := by
  refine .step hfits (fun w _ => by simp [hrun w]) (fun w obj'' place'' _ h' => ?_) ?_
  · simp [hrun w] at h'
  · intro w obj'' ret' _ h'
    simp only [hrun w, Option.some.injEq, Prod.mk.injEq, Sum.inr.injEq] at h'
    obtain ⟨rfl, rfl⟩ := h'
    exact h

/-- What the specification makes of `s` is what the object stands for, and is returned. -/
def Agrees (spec : Op → S → S × Ret) (Rep : Obj → S → Prop) (op : Op) (s : S) (obj : Obj)
    (ret : Ret) : Prop := Rep obj (spec op s).1 ∧ ret = (spec op s).2

/-- Run alone, every operation does what the specification says. -/
def Code.Meets (code : Code Obj Op Place World Ret) (fits : Obj → Place → World → Prop)
    (spec : Op → S → S × Ret) (Rep : Obj → S → Prop) : Prop :=
  ∀ obj s op, Rep obj s → code.Returns fits (Agrees spec Rep op s) obj (code.enter op)

/-- The world's answer is one it may give there. -/
def Sys.Fits (fits : Obj → Place → World → Prop) (s : Sys Thread Obj Op Place Ret) :
    Label Thread Op World → Prop
  | .run t w =>
      match s.phase t with
      | .inside _ place => fits s.obj place w
      | _ => True
  | .call _ _ | .lock _ | .unlock _ | .back _ => True

/-- Where an operation is in the atomic object: a step inside the code is not seen, and the
last one is the step of the atomic object. -/
def Phase.stage : Phase Op Place Ret → Stage Op Ret
  | .idle => .idle
  | .waiting op | .inside op _ => .called op
  | .leaving op ret | .returning op ret => .done op ret

/-- The object under the mutex and the atomic one: who is inside has found the object standing
for what the atomic one is, and is on its way to the result. -/
structure Related (code : Code Obj Op Place World Ret) (fits : Obj → Place → World → Prop)
    (spec : Op → S → S × Ret) (Rep : Obj → S → Prop) (s : Sys Thread Obj Op Place Ret)
    (a : Atomic Thread Op Ret S) : Prop where
  stage : ∀ t, a.stage t = (s.phase t).stage
  owner : ∀ t, (s.phase t).holds = true ↔ s.owner = some t
  free : (∀ t op place, s.phase t ≠ .inside op place) → Rep s.obj a.obj
  inside : ∀ t op place, s.phase t = .inside op place →
    code.Returns fits (Agrees spec Rep op a.obj) s.obj place

section related

variable {code : Code Obj Op Place World Ret} {fits : Obj → Place → World → Prop}
  {spec : Op → S → S × Ret} {Rep : Obj → S → Prop} {s s' : Sys Thread Obj Op Place Ret}
  {a : Atomic Thread Op Ret S} {t : Thread}

theorem Related.start {obj : Obj} {start : S} (hrep : Rep obj start) :
    Related code fits spec Rep ({ obj := obj, owner := none, phase := fun _ => .idle } :
      Sys Thread Obj Op Place Ret) { obj := start, stage := fun _ => .idle } :=
  ⟨fun _ => rfl, fun _ => by simp [Phase.holds], fun _ => hrep, by simp⟩

/-- **Mutual exclusion**: two threads in the code are one. -/
theorem Related.exclusive (h : Related code fits spec Rep s a) {t u : Thread}
    (ht : (s.phase t).holds = true) (hu : (s.phase u).holds = true) : t = u :=
  Option.some.inj (((h.owner t).mp ht).symm.trans ((h.owner u).mp hu))

/-- A thread that has the mutex and is not in the code leaves nobody there. -/
theorem Related.nobody (h : Related code fits spec Rep s a) (ht : (s.phase t).holds = true)
    (hnot : ∀ op place, s.phase t ≠ .inside op place) (u : Thread) (op : Op) (place : Place) :
    s.phase u ≠ .inside op place := by
  intro hu
  have htu := h.exclusive ht (u := u) (by rw [hu]; rfl)
  subst htu
  exact hnot op place hu

/-- Nobody is inside while the mutex is free. -/
theorem Related.free_of_owner (h : Related code fits spec Rep s a) (hfree : s.owner = none) :
    Rep s.obj a.obj := by
  refine h.free fun t op place ht => ?_
  have howner := (h.owner t).mp (by rw [ht]; rfl)
  simp [hfree] at howner

variable [DecidableEq Thread]

@[simp] theorem Sys.goto_phase_self (s : Sys Thread Obj Op Place Ret) (t : Thread)
    (phase : Phase Op Place Ret) : (s.goto t phase).phase t = phase := update_self ..

theorem Sys.goto_phase_of_ne (s : Sys Thread Obj Op Place Ret) {t u : Thread}
    (phase : Phase Op Place Ret) (h : u ≠ t) : (s.goto t phase).phase u = s.phase u :=
  update_of_ne h ..

theorem Atomic.goto_stage (a : Atomic Thread Op Ret S) (t u : Thread) (stage : Stage Op Ret) :
    (a.goto t stage).stage u = if u = t then stage else a.stage u := update_apply ..

theorem Sys.goto_phase (s : Sys Thread Obj Op Place Ret) (t u : Thread)
    (phase : Phase Op Place Ret) :
    (s.goto t phase).phase u = if u = t then phase else s.phase u := update_apply ..

/-- Going on without taking or releasing the mutex. -/
theorem Related.owner_goto (h : Related code fits spec Rep s a) {phase : Phase Op Place Ret}
    (hholds : phase.holds = (s.phase t).holds) (u : Thread) :
    ((s.goto t phase).phase u).holds = true ↔ s.owner = some u := by
  by_cases hu : u = t
  · subst hu
    rw [Sys.goto_phase_self, hholds]
    exact h.owner u
  · rw [Sys.goto_phase_of_ne _ _ hu]
    exact h.owner u

/-- Going on where nothing is seen. -/
theorem Related.stage_goto (h : Related code fits spec Rep s a) {phase : Phase Op Place Ret}
    (hstage : phase.stage = (s.phase t).stage) (u : Thread) :
    a.stage u = ((s.goto t phase).phase u).stage := by
  by_cases hu : u = t
  · subst hu
    rw [Sys.goto_phase_self, hstage]
    exact h.stage u
  · rw [Sys.goto_phase_of_ne _ _ hu]
    exact h.stage u

/-- Going on together. -/
theorem Related.stage_move (h : Related code fits spec Rep s a) {phase : Phase Op Place Ret}
    {stage : Stage Op Ret} (hstage : phase.stage = stage) (u : Thread) :
    (a.goto t stage).stage u = ((s.goto t phase).phase u).stage := by
  rw [Atomic.goto_stage, Sys.goto_phase]
  split
  · exact hstage.symm
  · exact h.stage u

/-- A thread that does not have the mutex goes on outside. -/
theorem Related.outside (h : Related code fits spec Rep s a) {phase : Phase Op Place Ret}
    {stage : Stage Op Ret} (hstage : phase.stage = stage) (hbefore : (s.phase t).holds = false)
    (hafter : phase.holds = false) :
    Related code fits spec Rep (s.goto t phase) (a.goto t stage) := by
  have hinside : ∀ u op place, (s.goto t phase).phase u = .inside op place ↔
      s.phase u = .inside op place := by
    intro u op place
    by_cases hu : u = t
    · subst hu
      rw [Sys.goto_phase_self]
      constructor
      · rintro rfl
        simp [Phase.holds] at hafter
      · intro hin
        rw [hin] at hbefore
        simp [Phase.holds] at hbefore
    · rw [Sys.goto_phase_of_ne _ _ hu]
  refine ⟨h.stage_move hstage, h.owner_goto (hafter.trans hbefore.symm), fun hnone => ?_, ?_⟩
  · exact h.free fun u op place hin => hnone u op place ((hinside u op place).mpr hin)
  · exact fun u op place hin => h.inside u op place ((hinside u op place).mp hin)

/-- The thread that has the mutex comes to the next place. -/
theorem Related.next (h : Related code fits spec Rep s a) {op : Op} {place place' : Place}
    {obj : Obj} (ht : s.phase t = .inside op place)
    (hreturns : code.Returns fits (Agrees spec Rep op a.obj) obj place') :
    Related code fits spec Rep { s.goto t (.inside op place') with obj := obj } a := by
  refine ⟨h.stage_goto (by rw [ht]; rfl), h.owner_goto (by rw [ht]; rfl), fun hnone => ?_, ?_⟩
  · exact absurd (s.goto_phase_self t _) (hnone t op place')
  · intro u op' place'' hu
    have hu : (s.goto t (.inside op place')).phase u = .inside op' place'' := hu
    by_cases htu : u = t
    · subst htu
      rw [Sys.goto_phase_self] at hu
      obtain ⟨rfl, rfl⟩ := Phase.inside.inj hu
      exact hreturns
    · rw [Sys.goto_phase_of_ne _ _ htu] at hu
      exact absurd (h.exclusive (t := u) (u := t) (by rw [hu]; rfl) (by rw [ht]; rfl)) htu

/-- A thread takes the free mutex. -/
theorem Related.lock (h : Related code fits spec Rep s a) (hmeets : code.Meets fits spec Rep)
    {op : Op} (ht : s.phase t = .waiting op) (hfree : s.owner = none) :
    Related code fits spec Rep
      { s.goto t (.inside op (code.enter op)) with owner := some t } a := by
  have hnobody : ∀ u, (s.phase u).holds = false := fun u => by
    rw [Bool.eq_false_iff]
    intro hu
    rw [(h.owner u).mp hu] at hfree
    simp at hfree
  have hrep : Rep s.obj a.obj := h.free_of_owner hfree
  have hphase : ∀ u, u ≠ t →
      (s.goto t (.inside op (code.enter op))).phase u = s.phase u :=
    fun u hu => s.goto_phase_of_ne _ hu
  refine ⟨h.stage_goto (by rw [ht]; rfl), fun u => ?_, fun hnone => ?_, fun u op' place hu => ?_⟩
  · by_cases hu : u = t
    · subst hu
      simp [Phase.holds]
    · have hu' := hnobody u
      rw [← hphase u hu] at hu'
      simp [hu', Ne.symm hu]
  · exact absurd (s.goto_phase_self t _) (hnone t op (code.enter op))
  · have hu : (s.goto t (.inside op (code.enter op))).phase u = .inside op' place := hu
    by_cases htu : u = t
    · subst htu
      rw [Sys.goto_phase_self] at hu
      obtain ⟨rfl, rfl⟩ := Phase.inside.inj hu
      exact hmeets s.obj a.obj op hrep
    · rw [hphase u htu] at hu
      have hnot := hnobody u
      rw [hu] at hnot
      simp [Phase.holds] at hnot

/-- The code comes to its result: the step of the atomic object. -/
theorem Related.done (h : Related code fits spec Rep s a) {op : Op} {place : Place} {obj : Obj}
    {ret : Ret} (ht : s.phase t = .inside op place) (hrep : Rep obj (spec op a.obj).1)
    (hret : ret = (spec op a.obj).2) :
    Related code fits spec Rep { s.goto t (.leaving op ret) with obj := obj }
      { a.goto t (.done op (spec op a.obj).2) with obj := (spec op a.obj).1 } := by
  subst hret
  refine ⟨h.stage_move rfl, h.owner_goto (by rw [ht]; rfl), fun _ => hrep,
    fun u op' place' hu => ?_⟩
  have hu : (s.goto t (.leaving op _)).phase u = .inside op' place' := hu
  by_cases htu : u = t
  · subst htu
    rw [Sys.goto_phase_self] at hu
    simp at hu
  · rw [Sys.goto_phase_of_ne _ _ htu] at hu
    exact absurd (h.exclusive (t := u) (u := t) (by rw [hu]; rfl) (by rw [ht]; rfl)) htu

/-- The mutex is released. -/
theorem Related.unlock (h : Related code fits spec Rep s a) {op : Op} {ret : Ret}
    (ht : s.phase t = .leaving op ret) :
    Related code fits spec Rep { s.goto t (.returning op ret) with owner := none } a := by
  have hholds : (s.phase t).holds = true := by rw [ht]; rfl
  have hnobody := h.nobody hholds (by simp [ht])
  have hother : ∀ u, u ≠ t → (s.phase u).holds = false := fun u hu => by
    rw [Bool.eq_false_iff]
    exact fun huh => hu (h.exclusive huh hholds)
  have hinside : ∀ u op' place, (s.goto t (.returning op ret)).phase u ≠ .inside op' place := by
    intro u op' place
    by_cases hu : u = t
    · subst hu
      rw [Sys.goto_phase_self]
      simp
    · rw [Sys.goto_phase_of_ne _ _ hu]
      exact hnobody u op' place
  refine ⟨h.stage_goto (by rw [ht]; rfl), fun u => ?_, fun _ => h.free hnobody, ?_⟩
  · by_cases hu : u = t
    · subst hu
      simp [Phase.holds]
    · have hu' := hother u hu
      rw [← s.goto_phase_of_ne (.returning op ret) hu] at hu'
      simp [hu']
  · exact fun u op' place hu => absurd hu (hinside u op' place)

/-- Every step under the mutex is one of the atomic object, or none. -/
theorem Related.step (h : Related code fits spec Rep s a) (hmeets : code.Meets fits spec Rep)
    {label : Label Thread Op World} (hfits : s.Fits fits label)
    (hstep : s.step code label = some s') :
    Answers (Atomic.step spec) Atomic.emits (Related code fits spec Rep) a s' (s.emits label) := by
  cases label with
  | call t op =>
      simp only [Sys.step] at hstep
      split at hstep <;> simp only [Option.some.injEq, reduceCtorEq] at hstep
      rename_i ht
      subst hstep
      have hstage : a.stage t = .idle := by rw [h.stage t, ht]; rfl
      refine .move (.call t op) (a.goto t (.called op)) ?_ rfl
        (h.outside rfl (by rw [ht]; rfl) rfl)
      simp [Atomic.step, hstage]
  | lock t =>
      simp only [Sys.step] at hstep
      split at hstep <;> simp only [Option.some.injEq, reduceCtorEq] at hstep
      rename_i op ht hfree
      subst hstep
      exact .stay rfl (h.lock hmeets ht hfree)
  | run t w =>
      simp only [Sys.step] at hstep
      split at hstep
      · rename_i op place ht
        simp only [Sys.Fits, ht] at hfits
        cases h.inside t op place ht with
        | step _ _ hnext hdone =>
            split at hstep <;> simp only [Option.some.injEq, reduceCtorEq] at hstep
            · rename_i obj place' hrun
              subst hstep
              exact .stay rfl (h.next ht (hnext w obj place' hfits hrun))
            · rename_i obj ret hrun
              subst hstep
              obtain ⟨hrep, hret⟩ := hdone w obj ret hfits hrun
              have hstage : a.stage t = .called op := by rw [h.stage t, ht]; rfl
              refine .move (.act t) _ ?_ rfl (h.done ht hrep hret)
              simp [Atomic.step, hstage]
      · simp at hstep
  | unlock t =>
      simp only [Sys.step] at hstep
      split at hstep <;> simp only [Option.some.injEq, reduceCtorEq] at hstep
      rename_i op ret ht
      subst hstep
      exact .stay rfl (h.unlock ht)
  | back t =>
      simp only [Sys.step] at hstep
      split at hstep <;> simp only [Option.some.injEq, reduceCtorEq] at hstep
      rename_i op ret ht
      subst hstep
      have hstage : a.stage t = .done op ret := by rw [h.stage t, ht]; rfl
      refine .move (.back t) (a.goto t .idle) ?_ ?_ (h.outside rfl (by rw [ht]; rfl) rfl)
      · simp [Atomic.step, hstage]
      · simp [Atomic.emits, Sys.emits, hstage, ht]

/-- **Code that is right alone is atomic under a mutex**: what any threads see of the calls,
they could have seen of the atomic object. -/
theorem atomic (hmeets : code.Meets fits spec Rep) {obj : Obj} {start : S}
    (hrep : Rep obj start) {x : Traced (Sys Thread Obj Op Place Ret) (Event Thread Op Ret)}
    (h : Reach (traced (Sys.step code) Sys.emits) (fun x => x.state.Fits fits)
      (Traced.Start (Sys.Start obj)) x) :
    ∃ y : Traced (Atomic Thread Op Ret S) (Event Thread Op Ret),
      Reachable (traced (Atomic.step spec) Atomic.emits) (Traced.Start (Atomic.Start start)) y ∧
        y.trace = x.trace ∧ Related code fits spec Rep x.state y.state := by
  refine h.simulated ?_ fun _ _ _ _ hrel hfits hstep => hrel.step hmeets hfits hstep
  intro s hs
  subst hs
  exact ⟨_, rfl, .start hrep⟩

/-! ### Every call can return -/

/-- A run of the system, and the atomic object it comes to. -/
def Leads (code : Code Obj Op Place World Ret) (fits : Obj → Place → World → Prop)
    (spec : Op → S → S × Ret) (Rep : Obj → S → Prop) (s s' : Sys Thread Obj Op Place Ret) : Prop :=
  Reach (Sys.step code) (Sys.Fits fits) (· = s) s' ∧ ∃ a', Related code fits spec Rep s' a'

theorem Related.leads (h : Related code fits spec Rep s a) : Leads code fits spec Rep s s :=
  ⟨.start rfl, a, h⟩

/-- One more step. -/
theorem Leads.step (h : Leads code fits spec Rep s s') (hmeets : code.Meets fits spec Rep)
    {label : Label Thread Op World} {s'' : Sys Thread Obj Op Place Ret}
    (hstep : s'.step code label = some s'') (hfits : s'.Fits fits label) :
    Leads code fits spec Rep s s'' := by
  obtain ⟨hreach, a, hrel⟩ := h
  refine ⟨.next hreach hfits hstep, ?_⟩
  cases hrel.step hmeets hfits hstep with
  | stay _ hrel' => exact ⟨_, hrel'⟩
  | move _ t' _ _ hrel' => exact ⟨t', hrel'⟩

/-- Who is inside comes to the end of the code. -/
theorem Leads.finish (h : Leads code fits spec Rep s s') (hmeets : code.Meets fits spec Rep)
    {op : Op} {place : Place} (ht : s'.phase t = .inside op place) {Q : Obj → Ret → Prop}
    (hreturns : code.Returns fits Q s'.obj place) :
    ∃ s'' ret, Leads code fits spec Rep s s'' ∧ s''.phase t = .leaving op ret ∧
      ∀ u, u ≠ t → s''.phase u = s'.phase u := by
  generalize hobj : s'.obj = obj at hreturns
  induction hreturns generalizing s' with
  | @step obj place hfits hrun _ _ ih =>
      subst hobj
      obtain ⟨w, hw⟩ := hfits
      have hfits' : s'.Fits fits (.run t w : Label Thread Op World) := by simp [Sys.Fits, ht, hw]
      cases hout : code.run s'.obj place w with
      | none => exact absurd hout (hrun w hw)
      | some out =>
          obtain ⟨obj', place' | ret⟩ := out
          · have hstep : s'.step code (.run t w) =
                some { s'.goto t (.inside op place') with obj := obj' } := by
              simp [Sys.step, ht, hout]
            obtain ⟨s'', ret, hleads, hleaving, hother⟩ := ih w obj' place' hw hout
              (h.step hmeets hstep hfits') (s'.goto_phase_self t _) rfl
            exact ⟨s'', ret, hleads, hleaving, fun u hu =>
              (hother u hu).trans (s'.goto_phase_of_ne _ hu)⟩
          · have hstep : s'.step code (.run t w) =
                some { s'.goto t (.leaving op ret) with obj := obj' } := by
              simp [Sys.step, ht, hout]
            exact ⟨_, ret, h.step hmeets hstep hfits', s'.goto_phase_self t _, fun u hu =>
              s'.goto_phase_of_ne _ hu⟩

/-- Who has the mutex comes to its return. -/
theorem Leads.release (h : Leads code fits spec Rep s s') (hmeets : code.Meets fits spec Rep)
    (ht : (s'.phase t).holds = true) :
    ∃ s'' op ret, Leads code fits spec Rep s s'' ∧ s''.phase t = .returning op ret ∧
      s''.owner = none ∧ ∀ u, u ≠ t → s''.phase u = s'.phase u := by
  have hleaving : ∃ s'' op ret, Leads code fits spec Rep s s'' ∧ s''.phase t = .leaving op ret ∧
      ∀ u, u ≠ t → s''.phase u = s'.phase u := by
    cases hphase : s'.phase t with
    | inside op place =>
        obtain ⟨-, a, hrel⟩ := id h
        obtain ⟨s'', ret, hrest⟩ := h.finish hmeets hphase (hrel.inside t op place hphase)
        exact ⟨s'', op, ret, hrest⟩
    | leaving op ret => exact ⟨s', op, ret, h, hphase, fun _ _ => rfl⟩
    | idle | waiting op | returning op ret =>
        rw [hphase] at ht
        simp [Phase.holds] at ht
  obtain ⟨s'', op, ret, hleads, hphase, hother⟩ := hleaving
  have hstep : s''.step code (.unlock t) =
      some { s''.goto t (.returning op ret) with owner := none } := by
    simp [Sys.step, hphase]
  exact ⟨_, op, ret, hleads.step hmeets hstep trivial, s''.goto_phase_self t _, rfl, fun u hu =>
    (s''.goto_phase_of_ne _ hu).trans (hother u hu)⟩

/-- The mutex comes free. -/
theorem Leads.unlocked (h : Leads code fits spec Rep s s') (hmeets : code.Meets fits spec Rep)
    (ht : (s'.phase t).holds = false) :
    ∃ s'', Leads code fits spec Rep s s'' ∧ s''.owner = none ∧ s''.phase t = s'.phase t := by
  obtain ⟨-, a, hrel⟩ := id h
  cases howner : s'.owner with
  | none => exact ⟨s', h, howner, rfl⟩
  | some u =>
      have hu := (hrel.owner u).mpr howner
      have hne : t ≠ u := by
        rintro rfl
        simp [ht] at hu
      obtain ⟨s'', -, -, hleads, -, hfree, hother⟩ := h.release hmeets hu
      exact ⟨s'', hleads, hfree, hother t hne⟩

/-- A call that is on its way back returns. -/
theorem Leads.back (h : Leads code fits spec Rep s s') (hmeets : code.Meets fits spec Rep)
    {op : Op} {ret : Ret} (ht : s'.phase t = .returning op ret) :
    ∃ s'', Leads code fits spec Rep s s'' ∧ s''.phase t = .idle := by
  have hstep : s'.step code (.back t) = some (s'.goto t .idle) := by simp [Sys.step, ht]
  exact ⟨_, h.step hmeets hstep trivial, s'.goto_phase_self t _⟩

/-- **No call is stuck**: wherever the threads are, each can come to its return. -/
theorem Related.returns (hmeets : code.Meets fits spec Rep) (h : Related code fits spec Rep s a)
    (t : Thread) : ∃ s', Reach (Sys.step code) (Sys.Fits fits) (· = s) s' ∧ s'.phase t = .idle := by
  have hback : ∀ s', Leads code fits spec Rep s s' → (s'.phase t).holds = true →
      ∃ s', Leads code fits spec Rep s s' ∧ s'.phase t = .idle := fun s' hleads ht => by
    obtain ⟨s'', op, ret, hleads', hphase, -, -⟩ := hleads.release hmeets ht
    exact hleads'.back hmeets hphase
  have hidle : ∃ s', Leads code fits spec Rep s s' ∧ s'.phase t = .idle := by
    cases ht : s.phase t with
    | idle => exact ⟨s, h.leads, ht⟩
    | waiting op =>
        obtain ⟨s', hleads, hfree, hphase⟩ := h.leads.unlocked hmeets (t := t) (by rw [ht]; rfl)
        have hlock : s'.step code (.lock t) =
            some { s'.goto t (.inside op (code.enter op)) with owner := some t } := by
          simp [Sys.step, hphase, ht, hfree]
        refine hback _ (hleads.step hmeets hlock trivial) ?_
        exact congrArg Phase.holds (s'.goto_phase_self t _)
    | inside op place | leaving op ret => exact hback s h.leads (by rw [ht]; rfl)
    | returning op ret => exact h.leads.back hmeets ht
  obtain ⟨s', hleads, hphase⟩ := hidle
  exact ⟨s', hleads.1, hphase⟩

end related

end Monitor
