import BankingEs.Async.Program

/-! Rely-guarantee reasoning for interleaved programs. Every thread guarantees
something of each step it makes, and relies on something of the steps that the
others make while it waits. -/

namespace BankingEs.Async
open Relation

variable {R : Type → Type} {ε α β σ ι : Type} (serves : Serves R σ) (rely guarantee : σ → σ → Prop)

/-- From `world` on, and whatever the others do in between, the program makes
guaranteed steps only and its value satisfies `post` for good. -/
def Guards (post : α → σ → Prop) : Program R α → σ → Prop
  | .pure value, world => ∀ later, ReflTransGen rely world later → post value later
  | .request op resume, world => ∀ before reply after,
      ReflTransGen rely world before → serves before op reply after →
        guarantee before after ∧ Guards post (resume reply) after

variable {serves rely guarantee}

theorem preserved_by_steps {step : σ → σ → Prop} {invariant : σ → Prop} {first last : σ}
    (preserves : ∀ before after, step before after → invariant before → invariant after)
    (moves : ReflTransGen step first last) (initial : invariant first) : invariant last := by
  induction moves with
  | refl => exact initial
  | tail _ step ih => exact preserves _ _ step ih

namespace Guards

private theorem later {post : α → σ → Prop} {program : Program R α} {world now : σ}
    (guards : Guards serves rely guarantee post program world) (moves : ReflTransGen rely world now) :
    Guards serves rely guarantee post program now := by
  cases program with
  | pure value => exact fun later more => guards later (moves.trans more)
  | request op resume => exact fun before reply after more served => guards before reply after (moves.trans more) served

theorem pure {post : α → σ → Prop} {value : α} {world : σ} (holds : post value world)
    (stable : ∀ before after, rely before after → post value before → post value after) :
    Guards serves rely guarantee post (.pure value) world :=
  fun _ moves => preserved_by_steps stable moves holds

theorem request {known : σ → Prop} {post : α → σ → Prop} {op : R β} {resume : β → Program R α} {world : σ}
    (relied : ∀ before after, rely before after → known before → known after)
    (step : ∀ before reply after, known before → serves before op reply after →
      guarantee before after ∧ Guards serves rely guarantee post (resume reply) after)
    (initial : known world) : Guards serves rely guarantee post (.request op resume) world :=
  fun before reply after moves served => step before reply after (preserved_by_steps relied moves initial) served

theorem bind {middle : α → σ → Prop} {post : β → σ → Prop} {program : Program R α}
    {next : α → Program R β} {world : σ} (guards : Guards serves rely guarantee middle program world)
    (rest : ∀ value now, middle value now → Guards serves rely guarantee post (next value) now) :
    Guards serves rely guarantee post (program >>= next) world := by
  induction program generalizing world with
  | pure value => exact rest value world (guards world .refl)
  | request op resume ih =>
    intro before reply after moves served
    obtain ⟨step, tail⟩ := guards before reply after moves served
    exact ⟨step, ih reply tail⟩

theorem andThen {middle : Except ε α → σ → Prop} {post : Except ε β → σ → Prop} {program : Program R (Except ε α)}
    {next : α → Program R (Except ε β)} {world : σ} (guards : Guards serves rely guarantee middle program world)
    (fails : ∀ error now, middle (.error error) now → post (.error error) now)
    (rest : ∀ value now, middle (.ok value) now → Guards serves rely guarantee post (next value) now) :
    Guards serves rely guarantee post (program.andThen next) world := by
  induction program generalizing world with
  | pure result =>
    cases result with
    | ok value => exact rest value world (guards world .refl)
    | error error => exact fun later moves => fails error later (guards later moves)
  | request op resume ih =>
    intro before reply after moves served
    obtain ⟨step, tail⟩ := guards before reply after moves served
    exact ⟨step, ih reply tail⟩

theorem of_uses {allowed : {β : Type} → R β → Prop} (invariant : σ → Prop) {program : Program R α} {world : σ}
    (uses : program.Uses allowed)
    (relied : ∀ before after, rely before after → invariant before → invariant after)
    (kept : ∀ {β : Type} (op : R β) before reply after, allowed op → serves before op reply after →
      invariant before → guarantee before after ∧ invariant after)
    (initial : invariant world) : Guards serves rely guarantee (fun _ => invariant) program world := by
  induction program generalizing world with
  | pure value => exact Guards.pure initial relied
  | request op resume ih =>
    intro before reply after moves served
    obtain ⟨step, holds⟩ := kept op before reply after uses.1 served (preserved_by_steps relied moves initial)
    exact ⟨step, ih reply (uses.2 reply) holds⟩

/-- A program guards what it goes by, if every request keeps it and the replies tell it the truth. -/
theorem of_follows {κ : Type} {allowed : {β : Type} → κ → R β → Prop} {learns : {β : Type} → κ → R β → β → κ}
    {post : κ → α → Prop} (holds : κ → σ → Prop) {known : κ} {program : Program R α} {world : σ}
    (follows : program.Follows allowed learns post known)
    (relied : ∀ known before after, rely before after → holds known before → holds known after)
    (kept : ∀ {β : Type} (known : κ) (op : R β) before reply after, allowed known op → serves before op reply after →
      holds known before → guarantee before after ∧ holds (learns known op reply) after)
    (initial : holds known world) :
    Guards serves rely guarantee (fun value world => ∃ known, holds known world ∧ post known value) program world := by
  induction program generalizing known world with
  | pure value =>
    exact Guards.pure ⟨known, initial, follows⟩ fun before after moves truth => by
      obtain ⟨known, holds, post⟩ := truth
      exact ⟨known, relied known before after moves holds, post⟩
  | request op resume ih =>
    intro before reply after moves served
    obtain ⟨step, holds⟩ := kept known op before reply after follows.1 served
      (preserved_by_steps (relied known) moves initial)
    exact ⟨step, ih reply (follows.2 reply) holds⟩

theorem runs {post : α → σ → Prop} {program : Program R α} {value : α} {first last : σ}
    (guards : Guards serves rely guarantee post program first) (run : Runs serves first program value last) :
    post value last := by
  induction run with
  | pure => exact guards _ .refl
  | request reply served rest ih => exact ih (guards _ _ _ .refl served).2

end Guards

/-- If every thread keeps its guarantee, and each can rely on the guarantees of
the others, then every thread still keeps it in the state reached, and the whole
run is a sequence of guaranteed steps. -/
theorem Interleaves.guards [DecidableEq ι] {serves : ι → Serves R σ} {rely guarantee : ι → σ → σ → Prop}
    {post : ι → α → σ → Prop} {start threads : ι → Program R α} {first last : σ} {history : List (Served ι R σ)}
    (compatible : ∀ thread other before after, thread ≠ other → guarantee thread before after →
      rely other before after)
    (initial : ∀ thread, Guards (serves thread) (rely thread) (guarantee thread) (post thread) (start thread) first)
    (run : Interleaves serves start first history threads last) :
    ReflTransGen (fun before after => ∃ thread, guarantee thread before after) first last ∧
      ∀ thread, Guards (serves thread) (rely thread) (guarantee thread) (post thread) (threads thread) last := by
  induction run with
  | start => exact ⟨.refl, initial⟩
  | @serve history threads before after β op resume thread reply run pending served ih =>
    obtain ⟨moves, promises⟩ := ih
    have active := promises thread
    rw [pending] at active
    obtain ⟨step, rest⟩ := active before reply after .refl served
    refine ⟨moves.tail ⟨thread, step⟩, ?_⟩
    intro other
    by_cases same : other = thread
    · subst same
      simpa using rest
    · have relied := compatible thread other before after (Ne.symm same) step
      simpa [same] using (promises other).later (.single relied)

/-- An invariant of the world decides which replies there are, and so what the threads go on to
do: what holds of each thread, and what is allowed to be served, is kept by the served calls. -/
theorem Interleaves.answered [DecidableEq ι] {serves : ι → Serves R σ} {start threads : ι → Program R α}
    {first last : σ}
    {history : List (Served ι R σ)} (invariant : σ → Prop) (stage : ι → Program R α → Prop)
    (allowed : Served ι R σ → Prop)
    (kept : ∀ (thread : ι) {β : Type} (op : R β) (resume : β → Program R α) (before : σ) (reply : β) (after : σ),
      invariant before → stage thread (.request op resume) → serves thread before op reply after →
      invariant after ∧ stage thread (resume reply) ∧ allowed ⟨thread, op, reply, after⟩)
    (run : Interleaves serves start first history threads last) (initial : invariant first)
    (starts : ∀ thread, stage thread (start thread)) :
    invariant last ∧ (∀ thread, stage thread (threads thread)) ∧ ∀ entry ∈ history, allowed entry := by
  induction run with
  | start => exact ⟨initial, starts, fun _ member => by cases member⟩
  | @serve history threads before after β op resume thread reply run pending served ih =>
    obtain ⟨holds, stages, past⟩ := ih
    have active := stages thread
    rw [pending] at active
    obtain ⟨holds, resumed, present⟩ := kept thread op resume before reply after holds active served
    refine ⟨holds, ?_, ?_⟩
    · intro other
      by_cases same : other = thread
      · subst same
        simpa using resumed
      · simpa [same] using stages other
    · intro entry member
      rcases List.mem_append.mp member with old | new
      · exact past entry old
      · rw [List.mem_singleton.mp new]
        exact present

end BankingEs.Async
