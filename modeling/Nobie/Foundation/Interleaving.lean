/-
# Programs over a shared store, alone and interleaved

A program performs operations on a store one at a time and goes on with their
answers. It can run alone, or in a pool whose programs take turns between any
two operations. A property that every path of a program guarantees, whatever it
is answered, holds of each program of a pool that has finished, in terms of the
operations it performed.
-/

import Nobie.Foundation.Transition
import Mathlib.Logic.Function.Basic

namespace Nobie.Foundation

universe u

/-- A program with operations `Op`, answered by `Answer`, and a result. -/
inductive Program (Op : Type u) (Answer : Op → Type u) (Result : Type u) : Type u
  | finish (result : Result) : Program Op Answer Result
  | perform (op : Op) (next : Answer op → Program Op Answer Result) : Program Op Answer Result

namespace Program

variable {Op : Type u} {Answer : Op → Type u} {Result Result' Store : Type u}

/-- A program followed by another one. -/
def andThen : Program Op Answer Result → (Result → Program Op Answer Result') →
    Program Op Answer Result'
  | finish result, next => next result
  | perform op rest, next => perform op fun answer => (rest answer).andThen next

/-- A program on a store that nothing else touches. -/
def alone (effect : (op : Op) → Store → Answer op × Store) :
    Program Op Answer Result → Store → Result × Store
  | finish result, store => (result, store)
  | perform op next, store => (next (effect op store).1).alone effect (effect op store).2

/-- On every path, whatever the answers, the operations performed and the result
satisfy a property. -/
def Ensures (Post : List Op → Result → Prop) : List Op → Program Op Answer Result → Prop
  | performed, finish result => Post performed result
  | performed, perform op next => ∀ answer, (next answer).Ensures Post (performed ++ [op])

/-- A composed program ensures what its second part ensures after every path of
the first one. -/
theorem ensures_andThen {Post : List Op → Result' → Prop} {performed : List Op}
    {program : Program Op Answer Result} {next : Result → Program Op Answer Result'}
    (h : program.Ensures (fun performed result => (next result).Ensures Post performed) performed) :
    (program.andThen next).Ensures Post performed := by
  induction program generalizing performed with
  | finish result => exact h
  | perform op rest ih => exact fun answer => ih answer (h answer)

/-- A property of every result is ensured by every program. -/
theorem ensures_of_forall {Post : List Op → Result → Prop}
    (h : ∀ performed result, Post performed result) (program : Program Op Answer Result)
    (performed : List Op) : program.Ensures Post performed := by
  induction program generalizing performed with
  | finish result => exact h performed result
  | perform op next ih => exact fun answer => ih answer _

@[simp]
theorem alone_andThen (effect : (op : Op) → Store → Answer op × Store)
    (program : Program Op Answer Result) (next : Result → Program Op Answer Result')
    (store : Store) :
    (program.andThen next).alone effect store =
      (next (program.alone effect store).1).alone effect (program.alone effect store).2 := by
  induction program generalizing store with
  | finish result => rfl
  | perform op rest ih => exact ih _ _

end Program

/-- A call and what is left of its program. -/
structure Process (Call Op : Type u) (Answer : Op → Type u) (Result : Type u) where
  call : Call
  rest : Program Op Answer Result

/-- A store, the calls on it and the operations they performed, in order. -/
structure Pool (Call Op : Type u) (Answer : Op → Type u) (Result Store : Type u) where
  store : Store
  processes : ℕ → Option (Process Call Op Answer Result)
  trace : List (ℕ × Op)

/-- A new call begins, or a process performs its next operation. -/
inductive Turn (Call : Type u)
  | begin (process : ℕ) (call : Call)
  | advance (process : ℕ)

namespace Pool

variable {Call Op : Type u} {Answer : Op → Type u} {Result Store : Type u}

/-- A store on which no call has begun. -/
def idle (store : Store) : Pool Call Op Answer Result Store := ⟨store, fun _ => none, []⟩

variable (pool : Pool Call Op Answer Result Store) (process : ℕ) (call : Call)

/-- The operations a process performed. -/
def performedBy : List Op := (pool.trace.filter fun entry => entry.1 = process).map Prod.snd

/-- A call has returned a result. -/
def Returned (result : Result) : Prop := pool.processes process = some ⟨call, .finish result⟩

/-- The operation a process is about to perform. -/
def Next (op : Op) : Prop := ∃ call next, pool.processes process = some ⟨call, .perform op next⟩

variable (rest : Program Op Answer Result) (effect : (op : Op) → Store → Answer op × Store)
  {next : Pool Call Op Answer Result Store} {turn : Turn Call}
  {last : Pool Call Op Answer Result Store} {turns : List (Turn Call)}
  {Post : Call → List Op → Result → Prop}

def put : Pool Call Op Answer Result Store :=
  { pool with processes := Function.update pool.processes process (some ⟨call, rest⟩) }

theorem processes_put (other : ℕ) :
    (pool.put process call rest).processes other =
      if other = process then some ⟨call, rest⟩ else pool.processes other :=
  Function.update_apply ..

@[simp]
theorem performedBy_put (other : ℕ) :
    (pool.put process call rest).performedBy other = pool.performedBy other := rfl

/-- The store and the trace after an operation of a process. -/
def commit (pool : Pool Call Op Answer Result Store) (process : ℕ) (op : Op) :
    Pool Call Op Answer Result Store :=
  { pool with store := (effect op pool.store).2, trace := pool.trace ++ [(process, op)] }

theorem performedBy_commit (pool : Pool Call Op Answer Result Store) (process : ℕ) (op : Op)
    (other : ℕ) :
    (pool.commit effect process op).performedBy other =
      pool.performedBy other ++ if other = process then [op] else [] := by
  by_cases h : other = process
  · subst h
    simp [performedBy, commit]
  · have hne : ¬ process = other := fun heq => h heq.symm
    simp [performedBy, commit, h, hne]

/-- One turn, if the process can take it. -/
def turn? (program : Call → Program Op Answer Result) (pool : Pool Call Op Answer Result Store) :
    Turn Call → Option (Pool Call Op Answer Result Store)
  | .begin process call =>
    match pool.processes process with
    | some _ => none
    | none => some (pool.put process call (program call))
  | .advance process =>
    match pool.processes process with
    | some ⟨call, .perform op next⟩ =>
      some ((pool.commit effect process op).put process call (next (effect op pool.store).1))
    | _ => none

variable {effect : (op : Op) → Store → Answer op × Store}
  {program : Call → Program Op Answer Result}

/-- What a turn can do. -/
theorem turn?_cases {pool : Pool Call Op Answer Result Store}
    (h : turn? effect program pool turn = some next) :
    (∃ process call, turn = .begin process call ∧ pool.processes process = none ∧
      next = pool.put process call (program call)) ∨
    (∃ process call op rest, turn = .advance process ∧
      pool.processes process = some ⟨call, .perform op rest⟩ ∧
      next = (pool.commit effect process op).put process call (rest (effect op pool.store).1)) := by
  cases turn with
  | begin process call =>
    simp only [turn?] at h
    split at h
    · cases h
    · next hnone => exact .inl ⟨process, call, rfl, hnone, (Option.some.inj h).symm⟩
  | advance process =>
    simp only [turn?] at h
    split at h
    · next call op rest hprocess =>
      exact .inr ⟨process, call, op, rest, rfl, hprocess, (Option.some.inj h).symm⟩
    · cases h

/-- A property of the store and the trace that every operation performed under a
condition preserves holds at the end of every run whose turns meet it. -/
theorem invariant_of_meeting {condition : Pool Call Op Answer Result Store → Turn Call → Prop}
    {Inv : Store → List (ℕ × Op) → Prop}
    (hstep : ∀ (pool : Pool Call Op Answer Result Store) process op, Inv pool.store pool.trace →
      pool.Next process op → condition pool (.advance process) →
      Inv (effect op pool.store).2 (pool.trace ++ [(process, op)]))
    {first : Pool Call Op Answer Result Store}
    (run : Run (Meeting condition (Takes (turn? effect program))) first turns last)
    (hfirst : Inv first.store first.trace) : Inv last.store last.trace := by
  have hturn : ∀ (pool : Pool Call Op Answer Result Store) turn next,
      Inv pool.store pool.trace → condition pool turn →
      Takes (turn? effect program) pool turn next → Inv next.store next.trace := by
    intro pool turn next hinv hcondition htaken
    obtain ⟨process, call, rfl, -, rfl⟩ | ⟨process, call, op, rest, rfl, hprocess, rfl⟩ :=
      turn?_cases htaken
    · exact hinv
    · exact hstep pool process op hinv ⟨call, rest, hprocess⟩ hcondition
  exact Run.invariant_of_meeting hturn run hfirst

/-- Every process still ensures what its program ensured when it began. -/
def Ensured (Post : Call → List Op → Result → Prop) (pool : Pool Call Op Answer Result Store) :
    Prop :=
  (∀ process, pool.processes process = none → pool.performedBy process = []) ∧
  ∀ process call rest, pool.processes process = some ⟨call, rest⟩ →
    rest.Ensures (Post call) (pool.performedBy process)

theorem ensured_turn (hprogram : ∀ call, (program call).Ensures (Post call) [])
    {pool : Pool Call Op Answer Result Store} (h : pool.Ensured Post)
    (htaken : turn? effect program pool turn = some next) : next.Ensured Post := by
  obtain ⟨process, call, rfl, hnone, rfl⟩ | ⟨process, call, op, rest, rfl, hprocess, rfl⟩ :=
    turn?_cases htaken
  · refine ⟨fun other hother => ?_, fun other call' rest hother => ?_⟩
    · rw [processes_put] at hother
      split at hother
      · cases hother
      · exact h.1 other hother
    · rw [processes_put] at hother
      split at hother
      · next heq =>
        rw [Option.some.injEq, Process.mk.injEq] at hother
        obtain ⟨rfl, rfl⟩ := hother
        rw [performedBy_put, heq, h.1 process hnone]
        exact hprogram call
      · exact h.2 other call' rest hother
  · refine ⟨fun other hother => ?_, fun other call' rest' hother => ?_⟩
    · rw [processes_put] at hother
      split at hother
      · cases hother
      · next hne =>
        rw [performedBy_put, performedBy_commit, if_neg hne, h.1 other hother]
        rfl
    · rw [processes_put] at hother
      rw [performedBy_put, performedBy_commit]
      split at hother
      · next heq =>
        subst heq
        rw [Option.some.injEq, Process.mk.injEq] at hother
        obtain ⟨rfl, rfl⟩ := hother
        rw [if_pos rfl]
        exact h.2 other call _ hprocess _
      · next hne =>
        rw [if_neg hne, List.append_nil]
        exact h.2 other call' rest' hother

/-- What every path of the programs ensures holds of the calls that returned in a
run of a pool. -/
theorem post_of_returned (hprogram : ∀ call, (program call).Ensures (Post call) []) {store : Store}
    (run : Run (Takes (turn? effect program)) (idle store) turns last) {process : ℕ} {call : Call}
    {result : Result} (h : last.Returned process call result) :
    Post call (last.performedBy process) result := by
  have hensured : last.Ensured Post :=
    run.invariant (fun _ _ _ hinv htaken => ensured_turn hprogram hinv htaken)
      ⟨fun _ _ => rfl, fun _ _ _ hprocess => absurd hprocess (by simp [idle])⟩
  exact hensured.2 process call _ h

end Pool

end Nobie.Foundation
