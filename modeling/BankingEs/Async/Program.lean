import Mathlib.Logic.Function.Basic
import Mathlib.Logic.Relation

/-! Asynchronous code as trees of requests. A request is one await point: the
caller is suspended until the shared world serves it and the reply resumes the
saved continuation. Nothing here fixes what the requests are or what they do. -/

namespace BankingEs.Async

inductive Program (R : Type → Type) (α : Type) where
  | pure : α → Program R α
  | request {β : Type} : R β → (β → Program R α) → Program R α

variable {R : Type → Type} {ε α β γ : Type}

namespace Program

def bind : Program R α → (α → Program R β) → Program R β
  | .pure value, next => next value
  | .request op resume, next => .request op (fun reply => (resume reply).bind next)

def send (op : R α) : Program R α := .request op .pure

instance : Monad (Program R) where
  pure := .pure
  bind := .bind

@[simp] theorem request_bind_eq (op : R γ) (resume : γ → Program R α) (next : α → Program R β) :
    (Program.request op resume >>= next) = .request op (fun reply => resume reply >>= next) := rfl

/-- The `?` operator: go on with a success, return a failure. -/
def andThen (program : Program R (Except ε α)) (next : α → Program R (Except ε β)) : Program R (Except ε β) :=
  program >>= fun result => match result with
    | .ok value => next value
    | .error error => .pure (.error error)

def mapRequests {S : Type → Type} (translate : {β : Type} → R β → S β) : Program R α → Program S α
  | .pure value => .pure value
  | .request op resume => .request (translate op) (fun reply => (resume reply).mapRequests translate)

/-- A program that goes by what it knows: `allowed` says which requests it may make, `learns` what it
knows after a reply, and `post` what it may return. -/
def Follows {κ : Type} (allowed : {β : Type} → κ → R β → Prop) (learns : {β : Type} → κ → R β → β → κ)
    (post : κ → α → Prop)
    (known : κ) : Program R α → Prop
  | .pure value => post known value
  | .request op resume => allowed known op ∧ ∀ reply, Follows allowed learns post (learns known op reply) (resume reply)

section Follows
variable {κ : Type} {allowed : {β : Type} → κ → R β → Prop} {learns : {β : Type} → κ → R β → β → κ} {known : κ}

theorem Follows.mono {post wider : κ → α → Prop} {program : Program R α}
    (follows : program.Follows allowed learns post known)
    (widens : ∀ known value, post known value → wider known value) : program.Follows allowed learns wider known := by
  induction program generalizing known with
  | pure value => exact widens known value follows
  | request op resume ih => exact ⟨follows.1, fun reply => ih reply (follows.2 reply)⟩

theorem Follows.bind {middle : κ → α → Prop} {post : κ → β → Prop} {program : Program R α} {next : α → Program R β}
    (follows : program.Follows allowed learns middle known)
    (rest : ∀ known value, middle known value → (next value).Follows allowed learns post known) :
    (program >>= next).Follows allowed learns post known := by
  induction program generalizing known with
  | pure value => exact rest known value follows
  | request op resume ih => exact ⟨follows.1, fun reply => ih reply (follows.2 reply)⟩

theorem Follows.andThen {middle : κ → Except ε α → Prop} {post : κ → Except ε β → Prop}
    {program : Program R (Except ε α)}
    {next : α → Program R (Except ε β)} (follows : program.Follows allowed learns middle known)
    (fails : ∀ known error, middle known (.error error) → post known (.error error))
    (rest : ∀ known value, middle known (.ok value) → (next value).Follows allowed learns post known) :
    (program.andThen next).Follows allowed learns post known := by
  refine follows.bind ?_
  intro known result holds
  cases result with
  | ok value => exact rest known value holds
  | error error => exact fails known error holds

end Follows

/-- Every request the program can ever issue is allowed, whatever the replies. -/
def Uses (allowed : {β : Type} → R β → Prop) : Program R α → Prop
  | .pure _ => True
  | .request op resume => allowed op ∧ ∀ reply, (resume reply).Uses allowed

theorem Uses.bind {allowed : {β : Type} → R β → Prop} {program : Program R α} {next : α → Program R β}
    (uses : program.Uses allowed) (rest : ∀ value, (next value).Uses allowed) : (program >>= next).Uses allowed := by
  induction program with
  | pure value => exact rest value
  | request op resume ih => exact ⟨uses.1, fun reply => ih reply (uses.2 reply)⟩

theorem Uses.of_all {allowed : {β : Type} → R β → Prop} (all : ∀ {β : Type} (op : R β), allowed op)
    (program : Program R α) : program.Uses allowed := by
  induction program with
  | pure value => trivial
  | request op resume ih => exact ⟨all op, ih⟩

theorem Uses.imp {allowed wider : {β : Type} → R β → Prop} {program : Program R α} (uses : program.Uses allowed)
    (widens : ∀ {β : Type} (op : R β), allowed op → wider op) : program.Uses wider := by
  induction program with
  | pure value => trivial
  | request op resume ih => exact ⟨widens op uses.1, fun reply => ih reply (uses.2 reply)⟩

theorem Uses.andThen {allowed : {β : Type} → R β → Prop} {program : Program R (Except ε α)}
    {next : α → Program R (Except ε β)} (uses : program.Uses allowed)
    (rest : ∀ value, (next value).Uses allowed) : (program.andThen next).Uses allowed := by
  apply uses.bind
  intro result
  cases result with
  | ok value => exact rest value
  | error error => trivial

/-- Answer requests until one of them gets no answer. The result is the value
of the program or the request at which it stopped. -/
def runUntil (answer : {β : Type} → R β → Option β) : Program R α → α ⊕ (β : Type) × R β
  | .pure value => .inl value
  | .request op resume =>
    match answer op with
    | some reply => (resume reply).runUntil answer
    | none => .inr ⟨_, op⟩

private theorem runUntil_bind (answer : {β : Type} → R β → Option β) (program : Program R α) (next : α → Program R β) :
    (program >>= next).runUntil answer = match program.runUntil answer with
      | .inl value => (next value).runUntil answer
      | .inr op => .inr op := by
  induction program with
  | pure value => rfl
  | request op resume ih =>
    rw [request_bind_eq, runUntil, runUntil]
    cases answer op with
    | none => rfl
    | some reply => exact ih reply

theorem runUntil_andThen (answer : {β : Type} → R β → Option β) (program : Program R (Except ε α))
    (next : α → Program R (Except ε β)) :
    (program.andThen next).runUntil answer = match program.runUntil answer with
      | .inl (.ok value) => (next value).runUntil answer
      | .inl (.error error) => .inl (.error error)
      | .inr op => .inr op := by
  rw [andThen, runUntil_bind]
  cases program.runUntil answer with
  | inl result =>
    cases result with
    | ok value => rfl
    | error error => rfl
  | inr op => rfl

end Program

/-- What a request may do to the world: `serves before op reply after`. -/
abbrev Serves (R : Type → Type) (σ : Type) := {β : Type} → σ → R β → β → σ → Prop

section Alone
variable {σ : Type} (serves : Serves R σ)

inductive Runs : σ → Program R α → α → σ → Prop where
  | pure {world value} : Runs world (.pure value) value world
  | request {β : Type} {before middle after : σ} {op : R β} {resume : β → Program R α} {value : α} (reply : β)
      (served : serves before op reply middle) (rest : Runs middle (resume reply) value after) :
      Runs before (.request op resume) value after

end Alone

structure Served (ι : Type) (R : Type → Type) (σ : Type) where
  thread : ι
  {Reply : Type}
  op : R Reply
  reply : Reply
  world : σ

section Together
variable {σ ι : Type} [DecidableEq ι]

/-- Any number of threads share one world. A step serves the pending request of
any thread. The history grows at the end. -/
inductive Interleaves (serves : ι → Serves R σ) (start : ι → Program R α) (first : σ) :
    List (Served ι R σ) → (ι → Program R α) → σ → Prop where
  | start : Interleaves serves start first [] start first
  | serve {history : List (Served ι R σ)} {threads : ι → Program R α} {before after : σ} {β : Type} {op : R β}
      {resume : β → Program R α} (thread : ι) (reply : β)
      (run : Interleaves serves start first history threads before)
      (pending : threads thread = .request op resume) (served : serves thread before op reply after) :
      Interleaves serves start first (history ++ [⟨thread, op, reply, after⟩])
        (Function.update threads thread (resume reply)) after

variable {serves : ι → Serves R σ} {start threads : ι → Program R α} {first last : σ}
  {history : List (Served ι R σ)}

theorem Interleaves.earlier {past : List (Served ι R σ)} {entry : Served ι R σ}
    (run : Interleaves serves start first history threads last) (earlier : past ++ [entry] <+: history) :
    ∃ threads world, Interleaves serves start first past threads world ∧
      serves entry.thread world entry.op entry.reply entry.world := by
  induction run with
  | start => simp at earlier
  | @serve history threads before after β op resume thread reply run pending served ih =>
    rcases List.prefix_concat_iff.mp earlier with all | earlier
    · obtain ⟨rfl, same⟩ := List.append_inj' all rfl
      obtain rfl := List.singleton_inj.mp same
      exact ⟨threads, before, run, served⟩
    · exact ih earlier

theorem Interleaves.mono {wider : ι → Serves R σ}
    (widens : ∀ thread {β : Type} before (op : R β) reply after,
      serves thread before op reply after → wider thread before op reply after)
    (run : Interleaves serves start first history threads last) : Interleaves wider start first history threads last := by
  induction run with
  | start => exact .start
  | serve thread reply _ pending served ih => exact ih.serve thread reply pending (widens _ _ _ _ _ served)

theorem Interleaves.invariant (holds : σ → Prop) (run : Interleaves serves start first history threads last)
    (kept : ∀ thread {β : Type} (op : R β) before reply after, serves thread before op reply after →
      holds before → holds after)
    (initial : holds first) : holds last := by
  induction run with
  | start => exact initial
  | serve thread reply run pending served ih => exact kept thread _ _ reply _ served ih

theorem Interleaves.alone {thread : ι} {program : Program R α} {value : α} {before after : σ}
    (run : Interleaves serves start first history threads before) (pending : threads thread = program)
    (runs : Runs (serves thread) before program value after) :
    ∃ longer, Interleaves serves start first longer (Function.update threads thread (.pure value)) after := by
  induction runs generalizing history threads with
  | pure => exact ⟨history, by rwa [← pending, Function.update_eq_self]⟩
  | request reply served rest ih =>
    obtain ⟨longer, done⟩ := ih (.serve thread reply run pending served) (Function.update_self ..)
    exact ⟨longer, by rwa [Function.update_idem] at done⟩

/-- What holds of a program whatever it is resumed with holds of every thread. -/
theorem Interleaves.programs (holds : ι → Program R α → Prop)
    (resumes : ∀ thread {β : Type} (op : R β) resume reply, holds thread (.request op resume) →
      holds thread (resume reply))
    (run : Interleaves serves start first history threads last) (initial : ∀ thread, holds thread (start thread))
    (thread : ι) : holds thread (threads thread) := by
  induction run with
  | start => exact initial thread
  | serve served reply run pending _ ih =>
    by_cases same : thread = served
    · subst same
      rw [pending] at ih
      simpa using resumes thread _ _ reply ih
    · simpa [same] using ih

/-- Each thread is in a phase. What the phases and the world have in common is kept if every
call keeps it while it moves its own thread on. -/
theorem Interleaves.phases {Phase : Type} (stage : ι → Phase → Program R α → Prop)
    (holds : List (Served ι R σ) → (ι → Phase) → σ → Prop)
    (run : Interleaves serves start first history threads last)
    (moves : ∀ {history phase before} thread {β : Type} {op : R β} {resume} reply {after},
      stage thread (phase thread) (.request op resume) → serves thread before op reply after →
      holds history phase before → ∃ next, stage thread next (resume reply) ∧
        holds (history ++ [⟨thread, op, reply, after⟩]) (Function.update phase thread next) after)
    (phase : ι → Phase) (initial : ∀ thread, stage thread (phase thread) (start thread)) (begins : holds [] phase first) :
    ∃ phase, (∀ thread, stage thread (phase thread) (threads thread)) ∧ holds history phase last := by
  induction run with
  | start => exact ⟨phase, initial, begins⟩
  | serve thread reply run pending served ih =>
    obtain ⟨phase, stages, held⟩ := ih
    obtain ⟨next, resumed, holds⟩ := moves thread reply (pending ▸ stages thread) served held
    refine ⟨Function.update phase thread next, ?_, holds⟩
    intro other
    by_cases same : other = thread
    · subst same
      rw [Function.update_self, Function.update_self]
      exact resumed
    · rw [Function.update_of_ne same, Function.update_of_ne same]
      exact stages other

/-- A footprint of the initial programs is a footprint of every request served,
and of everything the threads may still send. -/
theorem Interleaves.uses {allowed : ι → {β : Type} → R β → Prop}
    (run : Interleaves serves start first history threads last)
    (initial : ∀ thread, (start thread).Uses (allowed thread)) :
    (∀ entry ∈ history, allowed entry.thread entry.op) ∧ ∀ thread, (threads thread).Uses (allowed thread) := by
  induction run with
  | start => exact ⟨by simp, initial⟩
  | @serve history threads before after β op resume thread reply run pending served ih =>
    obtain ⟨past, future⟩ := ih
    have head := future thread
    rw [pending] at head
    refine ⟨?_, ?_⟩
    · intro entry member
      rcases List.mem_append.mp member with member | member
      · exact past entry member
      · obtain rfl := List.mem_singleton.mp member
        exact head.1
    · intro other
      by_cases same : other = thread
      · subst same
        simpa using head.2 reply
      · simpa [same] using future other

end Together
end BankingEs.Async
