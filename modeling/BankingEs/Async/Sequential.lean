import BankingEs.Async.Program

/-! Programs that run one after another. What a program returns when it runs alone
is found by going through it request by request, for every reply. -/

namespace BankingEs.Async

variable {R S : Type → Type} {ε α β κ σ : Type}

def Program.embed (request : {β : Type} → R β → S β) : Program R α → Program S α
  | .pure value => .pure value
  | .request op resume => .request (request op) fun reply => (resume reply).embed request

/-- `for item in items { body(item).await?; }`. -/
def Program.forEach (body : κ → Program R (Except ε Unit)) : List κ → Program R (Except ε Unit)
  | [] => .pure (.ok ())
  | item :: items => (body item).andThen fun _ => forEach body items

namespace Program

private theorem andThen_assoc {γ : Type} (program : Program R (Except ε α)) (next : α → Program R (Except ε β))
    (last : β → Program R (Except ε γ)) :
    (program.andThen next).andThen last = program.andThen fun value => (next value).andThen last := by
  induction program with
  | pure result =>
    cases result with
    | ok value => rfl
    | error error => rfl
  | request op resume ih => exact congrArg (Program.request op) (funext ih)

private theorem forEach_append (body : κ → Program R (Except ε Unit)) (first second : List κ) :
    forEach body (first ++ second) = (forEach body first).andThen fun _ => forEach body second := by
  induction first with
  | nil => rfl
  | cons item items ih => rw [List.cons_append, forEach, forEach, andThen_assoc, ih]

theorem forEach_map {ι : Type} (body : κ → Program R (Except ε Unit)) (item : ι → κ) (indices : List ι) :
    forEach body (indices.map item) = forEach (fun index => body (item index)) indices := by
  induction indices with
  | nil => rfl
  | cons index indices ih => rw [List.map_cons, forEach, forEach, ih]

theorem forEach_flatMap {ι : Type} (body : κ → Program R (Except ε Unit)) (items : ι → List κ) (indices : List ι) :
    forEach body (indices.flatMap items) = forEach (fun index => forEach body (items index)) indices := by
  induction indices with
  | nil => rfl
  | cons index indices ih => rw [List.flatMap_cons, forEach_append, ih, forEach]

theorem forEach_filterMap {ι : Type} (body : κ → Program R (Except ε Unit)) (item : ι → Option κ) (indices : List ι) :
    forEach body (indices.filterMap item) =
      forEach (fun index => match item index with | some chosen => body chosen | none => .pure (.ok ())) indices := by
  induction indices with
  | nil => rfl
  | cons index indices ih =>
    rw [List.filterMap_cons, forEach, ← ih]
    cases item index with
    | none => rfl
    | some chosen => rfl

theorem forEach_nothing (items : List κ) :
    forEach (fun _ => .pure (.ok ())) items = (.pure (.ok ()) : Program R (Except ε Unit)) := by
  induction items with
  | nil => rfl
  | cons item items ih => exact ih

end Program

variable {serves : Serves R σ}

theorem Runs.bind {program : Program R α} {next : α → Program R β} {value : α} {result : β} {first middle last : σ}
    (run : Runs serves first program value middle) (rest : Runs serves middle (next value) result last) :
    Runs serves first (program >>= next) result last := by
  induction run with
  | pure => exact rest
  | request reply served _ ih => exact .request reply served (ih rest)

theorem Runs.mono {wider : Serves R σ} {program : Program R α} {value : α} {first last : σ}
    (widens : ∀ {β : Type} before (op : R β) reply after, serves before op reply after → wider before op reply after)
    (run : Runs serves first program value last) : Runs wider first program value last := by
  induction run with
  | pure => exact .pure
  | request reply served _ ih => exact .request reply (widens _ _ _ _ served) ih

/-- Where every request is served, every program runs to an end. -/
theorem Runs.of_total (total : ∀ {β : Type} (world : σ) (op : R β), ∃ reply after, serves world op reply after)
    (program : Program R α) (world : σ) : ∃ value last, Runs serves world program value last := by
  induction program generalizing world with
  | pure value => exact ⟨value, world, .pure⟩
  | request op resume ih =>
    obtain ⟨reply, after, served⟩ := total world op
    obtain ⟨value, last, rest⟩ := ih reply after
    exact ⟨value, last, .request reply served rest⟩

/-- Whatever the replies, the program returns a value and a world that satisfy `post`. -/
def Returns (serves : Serves R σ) (post : α → σ → Prop) : Program R α → σ → Prop
  | .pure value, world => post value world
  | .request op resume, world => ∀ reply after, serves world op reply after → Returns serves post (resume reply) after

namespace Returns

theorem runs {post : α → σ → Prop} {program : Program R α} {value : α} {first last : σ}
    (returns : Returns serves post program first) (run : Runs serves first program value last) : post value last := by
  induction run with
  | pure => exact returns
  | request reply served rest ih => exact ih (returns reply _ served)

theorem mono {post wider : α → σ → Prop} {program : Program R α} {world : σ}
    (widens : ∀ value after, post value after → wider value after) (returns : Returns serves post program world) :
    Returns serves wider program world := by
  induction program generalizing world with
  | pure value => exact widens value world returns
  | request op resume ih => exact fun reply after served => ih reply (returns reply after served)

theorem bind {middle : α → σ → Prop} {post : β → σ → Prop} {program : Program R α} {next : α → Program R β} {world : σ}
    (returns : Returns serves middle program world)
    (rest : ∀ value after, middle value after → Returns serves post (next value) after) :
    Returns serves post (program >>= next) world := by
  induction program generalizing world with
  | pure value => exact rest value world returns
  | request op resume ih => exact fun reply after served => ih reply (returns reply after served)

/-- An embedded program is served as its requests are in the larger system. -/
theorem embed {request : {β : Type} → S β → R β} {post : α → σ → Prop} {program : Program S α} {world : σ}
    (returns : Returns (fun before op reply after => serves before (request op) reply after) post program world) :
    Returns serves post (program.embed request) world := by
  induction program generalizing world with
  | pure value => exact returns
  | request op resume ih => exact fun reply after served => ih reply (returns reply after served)

theorem andThen {middle : Except ε α → σ → Prop} {post : Except ε β → σ → Prop} {program : Program R (Except ε α)}
    {next : α → Program R (Except ε β)} {world : σ} (returns : Returns serves middle program world)
    (fails : ∀ error after, middle (.error error) after → post (.error error) after)
    (rest : ∀ value after, middle (.ok value) after → Returns serves post (next value) after) :
    Returns serves post (program.andThen next) world := by
  refine returns.bind ?_
  intro result after holds
  cases result with
  | ok value => exact rest value after holds
  | error error => exact fails error after holds

theorem andThen_ok {middle : σ → Prop} {post : Except ε β → σ → Prop} {program : Program R (Except ε α)}
    {next : α → Program R (Except ε β)} {value : α} {world : σ}
    (returns : Returns serves (fun reply after => reply = .ok value ∧ middle after) program world)
    (rest : ∀ after, middle after → Returns serves post (next value) after) :
    Returns serves post (program.andThen next) world := by
  refine returns.andThen ?_ ?_
  · rintro error after ⟨impossible, _⟩
    cases impossible
  · rintro other after ⟨same, holds⟩
    cases same
    exact rest after holds

theorem of_uses {allowed : {β : Type} → R β → Prop} (invariant : σ → Prop) {program : Program R α} {world : σ}
    (uses : program.Uses allowed)
    (kept : ∀ {β : Type} (op : R β) before reply after, allowed op → serves before op reply after →
      invariant before → invariant after)
    (initial : invariant world) : Returns serves (fun _ => invariant) program world := by
  induction program generalizing world with
  | pure value => exact initial
  | request op resume ih =>
    intro reply after served
    exact ih reply (uses.2 reply) (kept op world reply after uses.1 served initial)

end Returns

/-- If the program succeeds, its value and the world it leaves satisfy `post`. -/
def Succeeds (serves : Serves R σ) (post : α → σ → Prop) (program : Program R (Except ε α)) (world : σ) : Prop :=
  Returns serves (fun result after => ∀ value, result = .ok value → post value after) program world

namespace Succeeds

theorem runs {post : α → σ → Prop} {program : Program R (Except ε α)} {value : α} {first last : σ}
    (succeeds : Succeeds serves post program first) (run : Runs serves first program (.ok value) last) : post value last :=
  Returns.runs succeeds run value rfl

theorem ok {post : α → σ → Prop} {value : α} {world : σ} (holds : post value world) :
    Succeeds serves post (.pure (.ok value) : Program R (Except ε α)) world := by
  intro other same
  cases same
  exact holds

theorem error {post : α → σ → Prop} {error : ε} {world : σ} :
    Succeeds serves post (.pure (.error error) : Program R (Except ε α)) world := by
  intro value impossible
  cases impossible

/-- `call.await.map_err(f)`. -/
theorem mapError {δ : Type} {post : α → σ → Prop} {op : R (Except δ α)} {report : δ → ε} {world : σ}
    (step : ∀ value after, serves world op (.ok value) after → post value after) :
    Succeeds serves post (do return (← Program.send op).mapError report) world := by
  intro reply after served
  cases reply with
  | error error => exact Succeeds.error
  | ok value => exact Succeeds.ok (step value after served)

theorem mono {post wider : α → σ → Prop} {program : Program R (Except ε α)} {world : σ}
    (succeeds : Succeeds serves post program world) (widens : ∀ value after, post value after → wider value after) :
    Succeeds serves wider program world :=
  Returns.mono (fun _ after holds value same => widens value after (holds value same)) succeeds

theorem andThen {middle : α → σ → Prop} {post : β → σ → Prop} {program : Program R (Except ε α)}
    {next : α → Program R (Except ε β)} {world : σ} (succeeds : Succeeds serves middle program world)
    (rest : ∀ value after, middle value after → Succeeds serves post (next value) after) :
    Succeeds serves post (program.andThen next) world := by
  refine Returns.andThen succeeds ?_ ?_
  · intro error after _ value impossible
    cases impossible
  · exact fun value after holds => rest value after (holds value rfl)

theorem of_uses {allowed : {β : Type} → R β → Prop} (invariant : σ → Prop) {program : Program R (Except ε α)}
    {world : σ}
    (uses : program.Uses allowed)
    (kept : ∀ {β : Type} (op : R β) before reply after, allowed op → serves before op reply after →
      invariant before → invariant after)
    (initial : invariant world) : Succeeds serves (fun _ => invariant) program world :=
  (Returns.of_uses invariant uses kept initial).mono fun _ _ holds _ _ => holds

end Succeeds

section Each
variable (serves : Serves R σ)

inductive RunsEach : σ → List (Program R α) → List α → σ → Prop where
  | nil {world : σ} : RunsEach world [] [] world
  | cons {before middle after : σ} {program : Program R α} {programs : List (Program R α)} {value : α} {values : List α}
      (runs : Runs serves before program value middle) (rest : RunsEach middle programs values after) :
      RunsEach before (program :: programs) (value :: values) after

variable {serves}

theorem RunsEach.foldl {τ : Type} (holds : τ → σ → Prop) (next : τ → κ → τ) {body : κ → Program R α}
    (step : ∀ item summary world, holds summary world →
      Returns serves (fun _ => holds (next summary item)) (body item) world)
    {items : List κ} {values : List α} {first last : σ} (run : RunsEach serves first (items.map body) values last)
    (summary : τ) (initial : holds summary first) : holds (items.foldl next summary) last := by
  induction items generalizing first summary values with
  | nil =>
    cases run
    exact initial
  | cons item items ih =>
    cases run with
    | cons runs rest => exact ih rest _ ((step item summary first initial).runs runs)

theorem RunsEach.invariant (holds : σ → Prop) {body : κ → Program R α}
    (step : ∀ item world, holds world → Returns serves (fun _ => holds) (body item) world)
    {items : List κ} {values : List α} {first last : σ} (run : RunsEach serves first (items.map body) values last)
    (initial : holds first) : holds last :=
  run.foldl (fun _ : Unit => holds) (fun _ _ => ()) (fun item _ => step item) () initial

end Each
end BankingEs.Async
