import Mathlib.Tactic.Common

/-!
# Runs of a machine

A machine takes events one by one and moves on with each. What holds at every
step of a run follows from an invariant and from what every event of the run is
known to satisfy in the state it meets. Tasks over a shared state are such a machine:
an operation is a sequence of atomic steps, and a run takes the steps in any order.
-/

namespace MyQuic2

section

variable {σ ε : Type} (next : σ → ε → σ)

/-- Every event of the run satisfies the property in the state it meets. -/
def Along (P : σ → ε → Prop) : σ → List ε → Prop
  | _, [] => True
  | s, e :: es => P s e ∧ Along P (next s e) es

instance decidableAlong (P : σ → ε → Prop) [∀ s e, Decidable (P s e)] :
    ∀ s es, Decidable (Along next P s es)
  | _, [] => inferInstanceAs (Decidable True)
  | s, e :: es =>
    have := decidableAlong P (next s e) es
    inferInstanceAs (Decidable (P s e ∧ Along next P (next s e) es))

/-- The state after a run. -/
def after : σ → List ε → σ
  | s, [] => s
  | s, e :: es => after (next s e) es

variable {next}

lemma Along.and {P Q : σ → ε → Prop} {s : σ} {es : List ε} (hp : Along next P s es)
    (hq : Along next Q s es) : Along next (fun s e => P s e ∧ Q s e) s es := by
  induction es generalizing s with
  | nil => trivial
  | cons e es ih => exact ⟨⟨hp.1, hq.1⟩, ih hp.2 hq.2⟩

/-- An invariant that the steps of the run keep gives a property at every step. -/
lemma Along.of_invariant {Inv : σ → Prop} {Cond P : σ → ε → Prop}
    (hstep : ∀ s e, Inv s → Cond s e → P s e ∧ Inv (next s e)) {s : σ} {es : List ε}
    (hinv : Inv s) (hcond : Along next Cond s es) : Along next P s es := by
  induction es generalizing s with
  | nil => trivial
  | cons e es ih =>
    obtain ⟨hhead, htail⟩ := hcond
    obtain ⟨hp, hnext⟩ := hstep s e hinv hhead
    exact ⟨hp, ih hnext htail⟩

/-- An invariant that the steps of the run keep holds after it. -/
lemma after_of_invariant {Inv : σ → Prop} {Cond : σ → ε → Prop}
    (hstep : ∀ s e, Inv s → Cond s e → Inv (next s e)) {s : σ} {es : List ε} (hinv : Inv s)
    (hcond : Along next Cond s es) : Inv (after next s es) := by
  induction es generalizing s with
  | nil => exact hinv
  | cons e es ih =>
    obtain ⟨hhead, htail⟩ := hcond
    exact ih (hstep s e hinv hhead) htail

/-- An invariant that every step keeps holds after every run. -/
lemma after_of_kept {Inv : σ → Prop} (hstep : ∀ s e, Inv s → Inv (next s e)) {s : σ}
    (hinv : Inv s) (es : List ε) : Inv (after next s es) := by
  induction es generalizing s with
  | nil => exact hinv
  | cons e es ih => exact ih (hstep s e hinv)

end

/-- What a step leaves to its task: the place it goes on from, or the result of the call. -/
inductive Then (π ρ : Type) where
  | goto (place : π)
  | done (result : ρ)

/-- The operations of a shared state, step by step. -/
structure Program (σ ι π ρ : Type) where
  entry : ι → π
  step : σ → π → σ × Then π ρ

/-- A shared state with its tasks. -/
structure Pool (σ π ρ : Type) where
  shared : σ
  tasks : Nat → Option π
  returned : List (Nat × ρ)

/-- What a scheduler may do next. -/
inductive TaskEvent (ι : Type) where
  | call (task : Nat) (op : ι)
  | step (task : Nat)

variable {σ ι π ρ : Type}

namespace Pool

def new (s : σ) : Pool σ π ρ := ⟨s, fun _ => none, []⟩

def At (p : Pool σ π ρ) (place : π) : Prop := ∃ i, p.tasks i = some place

/-- A task moves to a place, or out of its call. -/
def move (p : Pool σ π ρ) (i : Nat) (place : Option π) : Pool σ π ρ :=
  { p with tasks := Function.update p.tasks i place }

/-- No task stands at a place of some kind. -/
def Avoids (p : Pool σ π ρ) (bad : π → Bool) : Prop := ∀ place, p.At place → bad place = false

variable {p : Pool σ π ρ} {place : π}

lemma At.of_move {i : Nat} {dest : Option π} (h : (p.move i dest).At place) :
    dest = some place ∨ p.At place := by
  obtain ⟨j, hj⟩ := h
  by_cases hji : j = i
  · subst hji
    exact .inl (by simpa [move] using hj)
  · exact .inr ⟨j, by simpa [move, hji] using hj⟩

lemma At.move {i : Nat} {here : π} (h : p.At place) (hi : p.tasks i = some here)
    (hne : here ≠ place) (dest : Option π) : (p.move i dest).At place := by
  obtain ⟨j, hj⟩ := h
  have hji : j ≠ i := by
    rintro rfl
    exact hne (Option.some.inj (hi.symm.trans hj))
  exact ⟨j, by simpa [Pool.move, hji] using hj⟩

lemma At.call {i : Nat} (h : p.At place) (hi : p.tasks i = none) (dest : Option π) :
    (p.move i dest).At place := by
  obtain ⟨j, hj⟩ := h
  have hji : j ≠ i := by
    rintro rfl
    exact absurd (hi.symm.trans hj) (Option.some_ne_none place).symm
  exact ⟨j, by simpa [Pool.move, hji] using hj⟩

lemma Avoids.move {bad : π → Bool} (h : p.Avoids bad) (i : Nat) {dest : Option π}
    (hdest : ∀ place ∈ dest, bad place = false) : (p.move i dest).Avoids bad := by
  intro place hat
  rcases hat.of_move with hto | hold
  · exact hdest place hto
  · exact h place hold

end Pool

namespace Program

variable (prog : Program σ ι π ρ)

/-- A task that is in a call begins no other, and one that is in none takes no step. -/
def next (p : Pool σ π ρ) : TaskEvent ι → Pool σ π ρ
  | .call i op => if (p.tasks i).isNone then p.move i (some (prog.entry op)) else p
  | .step i =>
    match p.tasks i with
    | none => p
    | some place =>
      match prog.step p.shared place with
      | (s, .goto dest) => { p.move i (some dest) with shared := s }
      | (s, .done r) => { p.move i none with shared := s, returned := p.returned ++ [(i, r)] }

inductive Moves (p : Pool σ π ρ) : TaskEvent ι → Pool σ π ρ → Prop where
  | idle {e} : Moves p e p
  | begun {i op} (hi : p.tasks i = none) : Moves p (.call i op) (p.move i (some (prog.entry op)))
  | went {i place s dest} (hi : p.tasks i = some place)
      (hstep : prog.step p.shared place = (s, .goto dest)) :
      Moves p (.step i) { p.move i (some dest) with shared := s }
  | ended {i place s r} (hi : p.tasks i = some place)
      (hstep : prog.step p.shared place = (s, .done r)) :
      Moves p (.step i) { p.move i none with shared := s, returned := p.returned ++ [(i, r)] }

lemma moves_next (p : Pool σ π ρ) (e : TaskEvent ι) : prog.Moves p e (prog.next p e) := by
  cases e with
  | call i op =>
    cases hi : p.tasks i with
    | none =>
      have hbegun : prog.Moves p (.call i op) _ := .begun hi
      simpa [next, hi] using hbegun
    | some place => simpa [next, hi] using Moves.idle
  | step i =>
    cases hi : p.tasks i with
    | none => simpa [next, hi] using Moves.idle
    | some place =>
      rcases hstep : prog.step p.shared place with ⟨s, dest | r⟩
      · simpa [next, hi, hstep] using Moves.went hi hstep
      · simpa [next, hi, hstep] using Moves.ended hi hstep

variable {prog}

lemma shared_next {p : Pool σ π ρ} {i : Nat} {place : π} (hi : p.tasks i = some place) :
    (prog.next p (.step i)).shared = (prog.step p.shared place).1 := by
  rcases hstep : prog.step p.shared place with ⟨s, dest | r⟩ <;> simp [next, hi, hstep]

/-- What every step keeps of the shared state holds after every run. -/
lemma shared_after {P : σ → Prop} (hstep : ∀ s place, P s → P (prog.step s place).1)
    {p : Pool σ π ρ} (hp : P p.shared) (es : List (TaskEvent ι)) :
    P (after prog.next p es).shared := by
  have hnext : ∀ (p : Pool σ π ρ) (e : TaskEvent ι), P p.shared → P (prog.next p e).shared := by
    intro p e hp
    have hmoves := prog.moves_next p e
    generalize prog.next p e = q at hmoves ⊢
    cases hmoves with
    | idle | begun _ => exact hp
    | @went _ place _ _ _ h | @ended _ place _ _ _ h => simpa [h] using hstep p.shared place hp
  exact after_of_kept hnext hp es

end Program

def TaskEvent.task : TaskEvent ι → Nat
  | call i _ => i
  | step i => i

namespace Pool

/-- Only the tasks below a number are in a call. -/
def Below (n : Nat) (p : Pool σ π ρ) : Prop := ∀ i, n ≤ i → p.tasks i = none

lemma new_below (n : Nat) (s : σ) : Below n (new s : Pool σ π ρ) := fun _ _ => rfl

variable {p : Pool σ π ρ}

/-- What holds at every place is a matter of the tasks below the number. -/
lemma Below.of_forall {n : Nat} (h : p.Below n) {Q : π → Prop}
    (hall : ∀ i < n, ∀ place ∈ p.tasks i, Q place) (place : π) (hat : p.At place) : Q place := by
  obtain ⟨i, hi⟩ := hat
  rcases Nat.lt_or_ge i n with hlt | hge
  · exact hall i hlt place hi
  · exact absurd (hi.symm.trans (h i hge)) (Option.some_ne_none place)

lemma Below.next {prog : Program σ ι π ρ} {n : Nat} (h : p.Below n) {e : TaskEvent ι}
    (he : e.task < n) : (prog.next p e).Below n := by
  intro i hi
  have hne : i ≠ e.task := Nat.ne_of_gt (Nat.lt_of_lt_of_le he hi)
  have hmoves := prog.moves_next p e
  generalize prog.next p e = q at hmoves ⊢
  cases hmoves with
  | idle => exact h i hi
  | begun _ | went _ _ | ended _ _ => exact (Function.update_of_ne hne _ _).trans (h i hi)

/-- A condition on the steps of few tasks, by one that looks at these tasks only. -/
lemma Below.along {prog : Program σ ι π ρ} {n : Nat}
    {Cond Check : Pool σ π ρ → TaskEvent ι → Prop}
    (hcheck : ∀ p e, p.Below n → Check p e → Cond p e) (h : p.Below n) {es : List (TaskEvent ι)}
    (hes : ∀ e ∈ es, e.task < n) (halong : Along prog.next Check p es) :
    Along prog.next Cond p es := by
  induction es generalizing p with
  | nil => trivial
  | cons e es ih =>
    refine ⟨hcheck p e h halong.1, ?_⟩
    exact ih (h.next (hes e List.mem_cons_self)) (fun e he => hes e (List.mem_cons_of_mem _ he))
      halong.2

end Pool

/-- A call that runs on its own from a place to its end. -/
inductive Program.Runs (prog : Program σ ι π ρ) : σ → π → σ → ρ → Prop where
  | done {s place s' r} (hstep : prog.step s place = (s', .done r)) : Runs prog s place s' r
  | goto {s place s₁ dest s' r} (hstep : prog.step s place = (s₁, .goto dest))
      (hrest : Runs prog s₁ dest s' r) : Runs prog s place s' r

/-- A task that is left alone ends its call as the call runs on its own. -/
lemma Program.Runs.alone {prog : Program σ ι π ρ} {s s' : σ} {place : π} {r : ρ}
    (h : prog.Runs s place s' r) (i : Nat) (tasks : Nat → Option π) (returned : List (Nat × ρ)) :
    ∃ n, after prog.next ⟨s, Function.update tasks i (some place), returned⟩
        (List.replicate n (.step i)) =
      ⟨s', Function.update tasks i none, returned ++ [(i, r)]⟩ := by
  induction h with
  | done hstep =>
    exact ⟨1, by simp [after, Program.next, Pool.move, hstep]⟩
  | goto hstep hrest ih =>
    obtain ⟨n, hn⟩ := ih
    refine ⟨n + 1, ?_⟩
    rw [List.replicate_succ, after]
    simpa [Program.next, Pool.move, hstep] using hn

end MyQuic2
