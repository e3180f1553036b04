import BlobStore.Library.Contract
import Mathlib.Data.Set.Card

set_option autoImplicit false

namespace Effects

-- A library that keeps its values to itself and hands out handles: what a fresh value
-- is, and what an operation does to a value that is ready for it.
structure Interface where
  Value : Type
  Op : Type
  Reply : Op → Type
  fresh : Value
  ready : Op → Value → Bool
  act : (op : Op) → Value → Reply op × Value

inductive HandleCall (E : Type) (I : Interface) where
  | base (call : E)
  | create
  | apply (handle : Nat) (op : I.Op)
  | free (handle : Nat)

@[reducible] def HandleReply {E : Type} (R : E → Type) (I : Interface) : HandleCall E I → Type
  | .base call => R call
  | .create => Option Nat
  | .apply _ op => I.Reply op
  | .free _ => Unit

-- No handle is handed out twice, so a stale one is never taken for another.
structure Heap (V : Type) where
  cells : List (Option V)
  misused : Bool

namespace Heap

variable {V : Type}

def empty : Heap V := ⟨[], false⟩

def valueAt (heap : Heap V) (handle : Nat) : Option V := heap.cells[handle]?.join

def put (heap : Heap V) (handle : Nat) (cell : Option V) : Heap V :=
  ⟨heap.cells.set handle cell, heap.misused⟩

def grow (heap : Heap V) (value : V) : Heap V := ⟨heap.cells ++ [some value], heap.misused⟩

def misuse (heap : Heap V) : Heap V := ⟨heap.cells, true⟩

def live (heap : Heap V) : Nat :=
  ((Finset.range heap.cells.length).filter (fun handle => (heap.valueAt handle).isSome)).card

theorem value_at_lt {heap : Heap V} {handle : Nat} {value : V}
    (there : heap.valueAt handle = some value) : handle < heap.cells.length := by
  rw [valueAt, Option.join_eq_some_iff] at there
  exact (List.getElem?_eq_some_iff.mp there).1

theorem value_at_fresh (heap : Heap V) : heap.valueAt heap.cells.length = none := by
  rw [valueAt, List.getElem?_eq_none (Nat.le_refl _)]
  rfl

theorem value_at_put {heap : Heap V} {handle : Nat} (inside : handle < heap.cells.length)
    (cell : Option V) (other : Nat) :
    (heap.put handle cell).valueAt other = if handle = other then cell else heap.valueAt other := by
  by_cases same : handle = other
  · subst same
    rw [if_pos rfl, valueAt, put, List.getElem?_set_self inside]
    rfl
  · rw [if_neg same, valueAt, put, List.getElem?_set_ne same]
    rfl

theorem value_at_grow (heap : Heap V) (value : V) (other : Nat) :
    (heap.grow value).valueAt other = if heap.cells.length = other then some value
      else heap.valueAt other := by
  by_cases same : heap.cells.length = other
  · subst same
    rw [if_pos rfl, valueAt, grow, List.getElem?_append_right (Nat.le_refl _), Nat.sub_self]
    rfl
  · rw [if_neg same, valueAt, grow]
    by_cases before : other < heap.cells.length
    · rw [List.getElem?_append_left before]
      rfl
    · rw [List.getElem?_eq_none (by simp only [List.length_append, List.length_singleton]; omega), valueAt,
        List.getElem?_eq_none (by omega)]

end Heap

section Semantics

variable {E : Type} {R : E → Type} {C σ : Type} (I : Interface)

-- A choice says whether there is memory left. What is done with a handle that is not
-- live, or with a value that is not ready, is recorded; the answer is then of no account.
def handleSem (sem : Sem E R C σ) : Sem (HandleCall E I) (HandleReply R I) (C × Bool) (σ × Heap I.Value)
  | .base call, choice, state => ((sem call choice.1 state.1).1, (sem call choice.1 state.1).2, state.2)
  | .create, choice, state =>
      if choice.2 then (some state.2.cells.length, state.1, state.2.grow I.fresh) else (none, state)
  | .apply handle op, _, state =>
      match state.2.valueAt handle with
      | some value =>
          ((I.act op value).1, state.1, if I.ready op value then
            state.2.put handle (some (I.act op value).2) else state.2.misuse)
      | none => ((I.act op I.fresh).1, state.1, state.2.misuse)
  | .free handle, _, state =>
      match state.2.valueAt handle with
      | some _ => ((), state.1, state.2.put handle none)
      | none => ((), state.1, state.2.misuse)

end Semantics

section Mimics

variable {E : Type} {R : E → Type} {I : Interface} {α β γ δ τ : Type}

abbrev Holding (V : Type) := Nat → Option V

def noHandles {V : Type} : Holding V := fun _ => none

def oneHandle {V : Type} (handle : Nat) (value : V) : Holding V :=
  Function.update noHandles handle (some value)

-- The first program does with handles what the second one does with values of its own.
-- It holds the given handles, and seen is what has been noted of its other calls. Where
-- the library has no memory left it gives up.
inductive Mimics (note : (call : E) → R call → τ → τ) (refusals : Holding I.Value → τ → α → Prop)
    (post : Holding I.Value → τ → α → β → Prop) :
    Holding I.Value → τ → Program (HandleCall E I) (HandleReply R I) α → Program E R β → Prop where
  | ends (held : Holding I.Value) (seen : τ) (value : α) (plain : β) (agree : post held seen value plain) :
      Mimics note refusals post held seen (.pure value) (.pure plain)
  | base (held : Holding I.Value) (seen : τ) (call : E)
      (next : R call → Program (HandleCall E I) (HandleReply R I) α)
      (plain : R call → Program E R β)
        (later : ∀ reply, Mimics note refusals post held (note call reply seen)
          (next reply) (plain reply)) :
      Mimics note refusals post held seen (.call (.base call) next) (.call call plain)
  | create (held : Holding I.Value) (seen : τ)
      (next : Option Nat → Program (HandleCall E I) (HandleReply R I) α) (plain : Program E R β)
      (granted : ∀ handle, held handle = none →
        Mimics note refusals post (Function.update held handle (some I.fresh)) seen
          (next (some handle)) plain)
      (refusal : ∃ value, next none = .pure value ∧ refusals held seen value) :
      Mimics note refusals post held seen (.call .create next) plain
  | apply (held : Holding I.Value) (seen : τ) (handle : Nat) (op : I.Op) (value : I.Value)
      (next : I.Reply op → Program (HandleCall E I) (HandleReply R I) α) (plain : Program E R β)
        (holds : held handle = some value)
      (ready : I.ready op value = true)
      (later : Mimics note refusals post (Function.update held handle (some (I.act op value).2))
        seen (next (I.act op value).1) plain) :
      Mimics note refusals post held seen (.call (.apply handle op) next) plain
  | free (held : Holding I.Value) (seen : τ) (handle : Nat) (value : I.Value)
      (next : Unit → Program (HandleCall E I) (HandleReply R I) α)
      (plain : Program E R β) (holds : held handle = some value)
      (later : Mimics note refusals post (Function.update held handle none) seen (next ()) plain) :
      Mimics note refusals post held seen (.call (.free handle) next) plain

variable {note : (call : E) → R call → τ → τ} {refusals : Holding I.Value → τ → α → Prop}
  {post : Holding I.Value → τ → α → β → Prop} {held : Holding I.Value} {seen : τ}
  {raw : Program (HandleCall E I) (HandleReply R I) α} {plain : Program E R β}

theorem mimics_bind {refused : Holding I.Value → τ → γ → Prop}
    {last : Holding I.Value → τ → γ → δ → Prop}
    (first : Mimics note refusals post held seen raw plain)
    (next : α → Program (HandleCall E I) (HandleReply R I) γ) (plainNext : β → Program E R δ)
    (gives : ∀ held seen value, refusals held seen value → ∃ given, next value = .pure given ∧
      refused held seen given) (later : ∀ held seen value other, post held seen value other →
      Mimics note refused last held seen (next value) (plainNext other)) :
    Mimics note refused last held seen (raw >>= next) (plain >>= plainNext) := by
  induction first with
  | ends held seen value other agree => exact later held seen value other agree
  | base held seen call rest other _ ih => exact .base held seen call _ _ ih
  | create held seen rest other _ refusal ih =>
      refine .create held seen _ _ ih ?_
      obtain ⟨value, stopped, refused⟩ := refusal
      obtain ⟨given, same, after⟩ := gives held seen value refused
      refine ⟨given, ?_, after⟩
      have bound : (rest none >>= next) = next value := by
        rw [stopped]
        rfl
      exact bound.trans same
  | apply held seen handle op value rest other holds ready _ ih =>
      exact .apply held seen handle op value _ _ holds ready ih
  | free held seen handle value rest other holds _ ih => exact .free held seen handle value _ _ holds ih

-- Any reply may come, and is noted.
def hearing (note : (call : E) → R call → τ → τ) : Contract E R τ :=
  fun call post seen => ∀ reply, post reply (note call reply seen)

theorem hearing_monotone : (hearing note).Monotone :=
  fun _ _ _ _ weaker holds reply => weaker reply _ (holds reply)

-- A program without handles, among programs that have some.
def onBase {α : Type} (program : Program E R α) : Program (HandleCall E I) (HandleReply R I) α :=
  program.inline (fun call => .perform (.base call))

theorem mimics_on_base {post : Holding I.Value → τ → β → β → Prop}
    {refusals : Holding I.Value → τ → β → Prop} (program : Program E R β)
    (holds : meets (hearing note) program (fun value after => post held after value value) seen) :
    Mimics note refusals post held seen (onBase program) program := by
  induction program generalizing seen with
  | pure value => exact .ends held seen value value holds
  | call call next ih => exact .base held seen call _ _ (fun reply => ih reply (holds reply))

-- The same calls made of others: the handles pass through.
def besideHandles {F : Type} {S : F → Type} (impl : (call : E) → Program F S (R call)) :
    (effect : HandleCall E I) → Program (HandleCall F I) (HandleReply S I) (HandleReply R I effect)
  | .base call => onBase (impl call)
  | .create => .perform HandleCall.create
  | .apply handle op => .perform (HandleCall.apply handle op)
  | .free handle => .perform (HandleCall.free handle)

theorem mimics_inline {F : Type} {S : F → Type} {noteInside : (call : F) → S call → τ → τ}
    (impl : (call : E) → Program F S (R call))
    (each : ∀ call seen, meets (hearing noteInside) (impl call)
      (fun reply after => after = note call reply seen) seen)
    (mimics : Mimics note refusals post held seen raw plain) :
    Mimics noteInside refusals post held seen (raw.inline (besideHandles impl)) (plain.inline impl) := by
  induction mimics with
  | ends held seen value other agree => exact .ends held seen value other agree
  | base held seen call rest other _ ih =>
      have performed : Mimics noteInside (fun _ _ _ => False) (fun now after reply plainReply =>
          now = held ∧ reply = plainReply ∧ after = note call reply seen) held seen
            (onBase (impl call)) (impl call) :=
        mimics_on_base (impl call)
          (meets_mono hearing_monotone _ _ _ _
            (fun reply after same => ⟨rfl, rfl, same⟩) (each call seen))
      refine mimics_bind performed _ _ (fun _ _ _ never => by cases never) ?_
      · intro now after reply plainReply agree
        obtain ⟨rfl, rfl, rfl⟩ := agree
        exact ih reply
  | create held seen rest other _ refusal ih =>
      refine .create held seen (fun reply => (rest reply).inline (besideHandles impl)) _ ih ?_
      obtain ⟨value, stopped, refused⟩ := refusal
      exact ⟨value, congrArg (Program.inline (besideHandles impl)) stopped, refused⟩
  | apply held seen handle op value rest other holds ready _ ih =>
      exact .apply held seen handle op value
        (fun reply => (rest reply).inline (besideHandles impl)) _ holds ready ih
  | free held seen handle value rest other holds _ ih =>
      exact .free held seen handle value (fun reply => (rest reply).inline (besideHandles impl)) _ holds ih

end Mimics

section Pools

variable {ι E : Type} {R : E → Type} {I : Interface} {C σ α β τ : Type} [DecidableEq ι]

-- The live handles are shared out among the processes.
structure Shared (heap : Heap I.Value) (holds : ι → Holding I.Value) : Prop where
  cells : ∀ handle value, heap.valueAt handle = some value ↔ ∃ proc, holds proc handle = some value
  apart : ∀ one two handle, holds one handle ≠ none → holds two handle ≠ none → one = two

variable {heap : Heap I.Value} {holds : ι → Holding I.Value}

omit [DecidableEq ι] in
theorem shared_empty : @Shared ι I Heap.empty (fun _ : ι => noHandles) := by
  constructor
  · intro handle value
    constructor
    · intro there
      cases there
    · intro held
      obtain ⟨proc, held⟩ := held
      cases held
  · intro one two handle held
    exact absurd rfl held

omit [DecidableEq ι] in
theorem shared_none (shared : Shared heap holds) {handle : Nat} (dead : heap.valueAt handle = none)
    (proc : ι) : holds proc handle = none := by
  cases held : holds proc handle with
  | none => rfl
  | some value =>
      have live := (shared.cells handle value).mpr ⟨proc, held⟩
      rw [dead] at live
      cases live

-- A process changes a cell of its own, or one that nobody has.
theorem shared_changed {after : Heap I.Value} {handle : Nat} {cell : Option I.Value}
    (shared : Shared heap holds) (proc : ι)
    (mine : ∀ other, holds other handle ≠ none → other = proc)
    (changed : ∀ other, after.valueAt other = if handle = other then cell else heap.valueAt other) :
    Shared after (Function.update holds proc (Function.update (holds proc) handle cell)) := by
  have now : ∀ other place, Function.update holds proc
      (Function.update (holds proc) handle cell) other place =
      if handle = place then (if other = proc then cell else none) else holds other place := by
    intro other place
    by_cases same : other = proc
    · subst same
      rw [Function.update_self, if_pos rfl]
      by_cases here : handle = place
      · subst here
        rw [Function.update_self, if_pos rfl]
      · rw [Function.update_of_ne (Ne.symm here), if_neg here]
    · rw [Function.update_of_ne same, if_neg same]
      by_cases here : handle = place
      · subst here
        rw [if_pos rfl]
        by_contra held
        exact same (mine other held)
      · rw [if_neg here]
  constructor
  · intro place value
    rw [changed place]
    by_cases here : handle = place
    · simp only [now, if_pos here]
      constructor
      · intro there
        exact ⟨proc, by rw [if_pos rfl]; exact there⟩
      · intro held
        obtain ⟨other, held⟩ := held
        by_cases same : other = proc
        · rw [if_pos same] at held
          exact held
        · rw [if_neg same] at held
          cases held
    · simp only [now, if_neg here]
      exact shared.cells place value
  · intro one two place first second
    rw [now] at first second
    by_cases here : handle = place
    · rw [if_pos here] at first second
      by_cases same : one = proc
      · by_cases also : two = proc
        · rw [same, also]
        · rw [if_neg also] at second
          exact absurd rfl second
      · rw [if_neg same] at first
        exact absurd rfl first
    · rw [if_neg here] at first second
      exact shared.apart one two place first second

theorem shared_put {handle : Nat} {value : I.Value} (shared : Shared heap holds) (proc : ι)
    (held : holds proc handle = some value) (cell : Option I.Value) :
    Shared (heap.put handle cell)
      (Function.update holds proc (Function.update (holds proc) handle cell)) := by
  refine shared_changed shared proc ?_
    (Heap.value_at_put (Heap.value_at_lt ((shared.cells handle value).mpr ⟨proc, held⟩)) cell)
  intro other also
  exact shared.apart other proc handle also (by rw [held]; exact Option.some_ne_none value)

theorem shared_grow (shared : Shared heap holds) (proc : ι) :
    Shared (heap.grow I.fresh)
      (Function.update holds proc
        (Function.update (holds proc) heap.cells.length (some I.fresh))) := by
  refine shared_changed shared proc ?_ (heap.value_at_grow I.fresh)
  intro other held
  exact absurd (shared_none shared heap.value_at_fresh other) held

theorem one_handle_at (handle : Nat) (value : I.Value) (place : Nat) :
    oneHandle handle value place ≠ none ↔ place = handle := by
  by_cases same : place = handle
  · subst same
    simp [oneHandle]
  · simp [oneHandle, noHandles, same]

omit [DecidableEq ι] in
-- Where nobody has more than one, there are as many live handles as there are holders.
theorem live_holders (shared : Shared heap holds)
    (atMostOne : ∀ proc, holds proc = noHandles ∨ ∃ handle value, holds proc = oneHandle handle value) :
    heap.live = {proc | holds proc ≠ noHandles}.ncard := by
  have some : ∀ proc, ∃ handle, holds proc ≠ noHandles → ∃ value, holds proc = oneHandle handle value := by
    intro proc
    cases atMostOne proc with
    | inl nothing => exact ⟨0, fun held => absurd nothing held⟩
    | inr one =>
        obtain ⟨handle, value, held⟩ := one
        exact ⟨handle, fun _ => ⟨value, held⟩⟩
  choose handleOf held using some
  have injective : Set.InjOn handleOf {proc | holds proc ≠ noHandles} := by
    intro one first two second same
    obtain ⟨value, ofOne⟩ := held one first
    obtain ⟨other, ofTwo⟩ := held two second
    refine shared.apart one two (handleOf one) ?_ ?_
    · rw [ofOne, one_handle_at]
    · rw [ofTwo, one_handle_at, same]
  have image : handleOf '' {proc | holds proc ≠ noHandles} =
      ((Finset.range heap.cells.length).filter
        (fun handle => (heap.valueAt handle).isSome) : Finset Nat) := by
    ext handle
    simp only [Finset.coe_filter, Finset.mem_range, Set.mem_image,
      Set.mem_ofPred_eq, Option.isSome_iff_exists]
    constructor
    · intro owned
      obtain ⟨proc, holding, rfl⟩ := owned
      obtain ⟨value, same⟩ := held proc holding
      have there : heap.valueAt (handleOf proc) = some value :=
        (shared.cells _ _).mpr ⟨proc, by rw [same, oneHandle, Function.update_self]⟩
      exact ⟨Heap.value_at_lt there, value, there⟩
    · intro live
      obtain ⟨-, value, there⟩ := live
      obtain ⟨proc, holding⟩ := (shared.cells handle value).mp there
      have something : holds proc ≠ noHandles := by
        intro nothing
        rw [nothing] at holding
        cases holding
      obtain ⟨other, same⟩ := held proc something
      refine ⟨proc, something, ?_⟩
      have mine : oneHandle (handleOf proc) other handle ≠ none := by
        rw [← same, holding]
        exact Option.some_ne_none value
      exact ((one_handle_at _ _ _).mp mine).symm
  rw [Heap.live, ← Set.ncard_coe_finset, ← image, injective.ncard_image]

variable (note : (call : E) → R call → τ → τ) (first : τ)
  (refusals : Holding I.Value → τ → α → Prop) (posts : ι → Holding I.Value → τ → α → β → Prop)

-- Processes that work with handles on one heap, and the same ones with values of their
-- own. One that has been refused its memory stands where it was refused.
structure Mimicking (raw : Pool ι (HandleCall E I) (HandleReply R I) α (σ × Heap I.Value))
    (plain : Pool ι E R β σ) (holds : ι → Holding I.Value) : Prop where
  state : raw.state.1 = plain.state
  clean : raw.state.2.misused = false
  shared : Shared raw.state.2 holds
  each : ∀ proc, Mimics note refusals (posts proc) (holds proc)
    (noted note first plain.history proc) (raw.procs proc) (plain.procs proc) ∨
    ∃ value, raw.procs proc = .pure value ∧ refusals (holds proc) (noted note first plain.history proc) value

variable {note first refusals posts}
  {raw : Pool ι (HandleCall E I) (HandleReply R I) α (σ × Heap I.Value)} {plain : Pool ι E R β σ}
  {sem : Sem E R C σ}

theorem mimicking_call (mimicking : Mimicking note first refusals posts raw plain holds) {proc : ι}
    {effect : HandleCall E I} {next : HandleReply R I effect →
      Program (HandleCall E I) (HandleReply R I) α} (shape : raw.procs proc = .call effect next) :
    Mimics note refusals (posts proc) (holds proc) (noted note first plain.history proc)
      (.call effect next) (plain.procs proc) := by
  cases mimicking.each proc with
  | inl mimics =>
      rw [shape] at mimics
      exact mimics
  | inr refused =>
      obtain ⟨value, ended, -⟩ := refused
      rw [shape] at ended
      cases ended

-- A step among the handles is no step of the others.
theorem mimicking_inside (mimicking : Mimicking note first refusals posts raw plain holds)
    (proc : ι) (program : Program (HandleCall E I) (HandleReply R I) α) (heap : Heap I.Value)
    (mine : Holding I.Value)
    (history : List (Step ι (HandleCall E I) (HandleReply R I) (σ × Heap I.Value)))
    (clean : heap.misused = false) (shared : Shared heap (Function.update holds proc mine))
    (goesOn : Mimics note refusals (posts proc) mine (noted note first plain.history proc) program
      (plain.procs proc) ∨ ∃ value, program = .pure value ∧
      refusals mine (noted note first plain.history proc) value) :
    Mimicking note first refusals posts ⟨Function.update raw.procs proc program,
      (raw.state.1, heap), history⟩ plain
      (Function.update holds proc mine) := by
  refine ⟨mimicking.state, clean, shared, fun other => ?_⟩
  by_cases same : other = proc
  · subst same
    simp only [Function.update_self]
    exact goesOn
  · simp only [Function.update_of_ne same]
    exact mimicking.each other

theorem mimicking_outside (mimicking : Mimicking note first refusals posts raw plain holds)
    (proc : ι) (choice : C) {call : E}
    {next : R call → Program (HandleCall E I) (HandleReply R I) α}
    {plainNext : R call → Program E R β} (now : plain.procs proc = .call call plainNext)
    (later : ∀ reply, Mimics note refusals (posts proc) (holds proc)
      (note call reply (noted note first plain.history proc)) (next reply) (plainNext reply))
    (history : List (Step ι (HandleCall E I) (HandleReply R I) (σ × Heap I.Value))) :
    Mimicking note first refusals posts
      ⟨Function.update raw.procs proc (next (sem call choice raw.state.1).1),
        ((sem call choice raw.state.1).2, raw.state.2), history⟩
      (plain.step sem (proc, choice)) holds := by
  have stepped : plain.step sem (proc, choice) =
      ⟨Function.update plain.procs proc (plainNext (sem call choice plain.state).1),
      (sem call choice plain.state).2,
        plain.history ++ [⟨proc, ⟨call, (sem call choice plain.state).1⟩, plain.state,
        (sem call choice plain.state).2⟩]⟩ := by
    rw [Pool.step, now]
  rw [stepped, mimicking.state]
  refine ⟨rfl, mimicking.clean, mimicking.shared, fun other => ?_⟩
  dsimp only
  rw [noted_snoc]
  by_cases same : proc = other
  · subst same
    rw [if_pos rfl, Function.update_self, Function.update_self]
    exact .inl (later _)
  · rw [if_neg same, Function.update_of_ne (Ne.symm same), Function.update_of_ne (Ne.symm same)]
    exact mimicking.each other

theorem mimicking_step (sem : Sem E R C σ)
    (mimicking : Mimicking note first refusals posts raw plain holds) (turn : ι × (C × Bool)) :
    ∃ kept, (kept = [] ∨ kept = [(turn.1, turn.2.1)]) ∧ ∃ after, Mimicking note first refusals posts
      (raw.step (handleSem I sem) turn) (plain.run sem kept) after := by
  cases Pool.step_cases (handleSem I sem) raw turn with
  | inl idle =>
      rw [idle.1]
      exact ⟨[], .inl rfl, holds, mimicking⟩
  | inr active =>
      obtain ⟨effect, next, shape, stepped⟩ := active
      rw [stepped]
      have mimics := mimicking_call mimicking shape
      generalize now : plain.procs turn.1 = program at mimics
      cases mimics with
      | base _ _ call _ plainNext later =>
          exact ⟨[(turn.1, turn.2.1)], .inr rfl, holds,
            mimicking_outside mimicking turn.1 turn.2.1 now later _⟩
      | create _ _ _ _ granted refusal =>
          refine ⟨[], .inl rfl, ?_⟩
          by_cases memory : turn.2.2 = true
          · have taken : handleSem I sem .create turn.2 raw.state =
                (some raw.state.2.cells.length, raw.state.1, raw.state.2.grow I.fresh) :=
              if_pos memory
            have free := shared_none mimicking.shared raw.state.2.value_at_fresh turn.1
            have goesOn := granted raw.state.2.cells.length free
            rw [← now] at goesOn
            rw [taken]
            exact ⟨_, mimicking_inside mimicking turn.1 _ _ _ _ mimicking.clean
              (shared_grow mimicking.shared turn.1) (.inl goesOn)⟩
          · have taken : handleSem I sem .create turn.2 raw.state =
                (none, raw.state.1, raw.state.2) := if_neg memory
            rw [taken]
            refine ⟨_, mimicking_inside mimicking turn.1 _ _
              (holds turn.1) _ mimicking.clean ?_ (.inr refusal)⟩
            rw [Function.update_eq_self]
            exact mimicking.shared
      | apply _ _ handle op value _ _ held ready later =>
          refine ⟨[], .inl rfl, ?_⟩
          have live := (mimicking.shared.cells handle value).mpr ⟨turn.1, held⟩
          have taken : handleSem I sem (.apply handle op) turn.2 raw.state =
              ((I.act op value).1, raw.state.1, raw.state.2.put handle (some (I.act op value).2)) := by
            simp only [handleSem, live, ready, if_true]
          rw [← now] at later
          rw [taken]
          exact ⟨_, mimicking_inside mimicking turn.1 _ _ _ _ mimicking.clean
            (shared_put mimicking.shared turn.1 held _) (.inl later)⟩
      | free _ _ handle value _ _ held later =>
          refine ⟨[], .inl rfl, ?_⟩
          have live := (mimicking.shared.cells handle value).mpr ⟨turn.1, held⟩
          have taken : handleSem I sem (.free handle) turn.2 raw.state =
              ((), raw.state.1, raw.state.2.put handle none) := by
            simp only [handleSem, live]
          rw [← now] at later
          rw [taken]
          exact ⟨_, mimicking_inside mimicking turn.1 _ _ _ _ mimicking.clean
            (shared_put mimicking.shared turn.1 held none) (.inl later)⟩

-- However processes with handles interleave, they do what the same ones do with values
-- of their own in some run that leaves out the steps among the handles.
theorem mimicking_run (sem : Sem E R C σ)
    (rawProcs : ι → Program (HandleCall E I) (HandleReply R I) α)
    (plainProcs : ι → Program E R β) (state : σ)
    (each : ∀ proc, Mimics note refusals (posts proc) noHandles first (rawProcs proc)
      (plainProcs proc)) (schedule : List (ι × (C × Bool))) :
    ∃ kept, List.Sublist kept (schedule.map (fun turn => (turn.1, turn.2.1))) ∧ ∃ holds,
      Mimicking note first refusals posts
      ((Pool.start rawProcs (state, Heap.empty)).run (handleSem I sem) schedule)
        ((Pool.start plainProcs state).run sem kept) holds := by
  have start : Mimicking note first refusals posts (Pool.start rawProcs (state, Heap.empty))
      (Pool.start plainProcs state)
      (fun _ => noHandles) := ⟨rfl, rfl, shared_empty, fun proc => .inl (each proc)⟩
  generalize (Pool.start rawProcs (state, Heap.empty)) = raw at start
  generalize (Pool.start plainProcs state) = plain at start
  generalize (fun _ : ι => (noHandles : Holding I.Value)) = holds at start
  induction schedule generalizing raw plain holds with
  | nil => exact ⟨[], List.Sublist.refl [], holds, start⟩
  | cons turn rest ih =>
      obtain ⟨kept, which, after, stepped⟩ := mimicking_step sem start turn
      obtain ⟨later, sub, last, done⟩ := ih _ _ _ stepped
      refine ⟨kept ++ later, ?_, last, ?_⟩
      · cases which with
        | inl skipped =>
            rw [skipped]
            exact sub.cons _
        | inr taken =>
            rw [taken]
            exact sub.cons_cons _
      · have whole : plain.run sem (kept ++ later) = (plain.run sem kept).run sem later := List.foldl_append
        rw [whole]
        exact done

end Pools

end Effects
