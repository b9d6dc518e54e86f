import Mathlib.Data.List.Basic

/-!
# Programs that change a state and may raise

A program takes a state to a result or an error, and to the state that it leaves either way: what
was assigned before an error stays.  `Triple P m Q R` says that from a state in `P` the program ends
in `Q` of its result or in `R` of its error.

The rules follow the constructs of the programs: each takes triples of the parts to a triple of the
whole, so that a proof follows the text of the program.
-/

/-- A program with states `σ` and errors `ε`. -/
def Program (σ ε : Type*) (α : Type) := σ → Except ε α × σ

namespace Program

variable {σ ε : Type*} {α β : Type}

/-! ## Constructs -/

def ret (a : α) : Program σ ε α := fun s => (.ok a, s)

def bind (m : Program σ ε α) (f : α → Program σ ε β) : Program σ ε β := fun s =>
  match m s with
  | (.ok a, t) => f a t
  | (.error e, t) => (.error e, t)

instance : Monad (Program σ ε) where
  pure := ret
  bind := bind

def raise (e : ε) : Program σ ε α := fun s => (.error e, s)

/-- A value of the state. -/
def read (f : σ → α) : Program σ ε α := fun s => (.ok (f s), s)

def update (f : σ → σ) : Program σ ε Unit := fun s => (.ok (), f s)

/-- `try: m except: handler`. -/
def handle (m : Program σ ε α) (handler : ε → Program σ ε α) : Program σ ε α := fun s =>
  match m s with
  | (.ok a, t) => (.ok a, t)
  | (.error e, t) => handler e t

/-- `try: m finally: after`; an error of `after` takes the place of the result. -/
def andFinally (m : Program σ ε α) (after : Program σ ε Unit) : Program σ ε α := fun s =>
  match m s with
  | (r, t) =>
      match after t with
      | (.ok (), u) => (r, u)
      | (.error e, u) => (.error e, u)

/-- `if c: m`. -/
def onlyIf (c : Prop) [Decidable c] (m : Program σ ε Unit) : Program σ ε Unit :=
  if c then m else ret ()

/-- `for x in xs: body`. -/
def each (xs : List α) (body : α → Program σ ε Unit) : Program σ ε Unit :=
  match xs with
  | [] => ret ()
  | x :: xs => bind (body x) fun _ => each xs body

theorem update_bind (f : σ → σ) (k : Unit → Program σ ε β) (s : σ) :
    (update f >>= k) s = k () (f s) := rfl

theorem read_bind (f : σ → α) (k : α → Program σ ε β) (s : σ) : (read f >>= k) s = k (f s) s := rfl

theorem ite_run (p : Prop) [Decidable p] (m n : Program σ ε α) (s : σ) :
    (if p then m else n) s = if p then m s else n s := by
  split
  · rfl
  · rfl

theorem bind_assoc {γ : Type} (m : Program σ ε α) (f : α → Program σ ε β) (g : β → Program σ ε γ) :
    bind (bind m f) g = bind m fun a => bind (f a) g := by
  funext s
  simp only [bind]
  rcases m s with ⟨_ | _, _⟩ <;> rfl

theorem each_append (xs ys : List α) (body : α → Program σ ε Unit) :
    each (xs ++ ys) body = bind (each xs body) fun _ => each ys body := by
  induction xs with
  | nil => rfl
  | cons x xs ih => rw [List.cons_append, each, ih, each, bind_assoc]

/-! ## Triples -/

def Triple (P : σ → Prop) (m : Program σ ε α) (Q : α → σ → Prop) (R : ε → σ → Prop) : Prop :=
  ∀ s, P s →
    match m s with
    | (.ok a, t) => Q a t
    | (.error e, t) => R e t

namespace Triple

variable {P P' : σ → Prop} {m : Program σ ε α} {Q Q' : α → σ → Prop} {R M : ε → σ → Prop}

theorem ok {s t : σ} {a : α} (h : Triple P m Q R) (hs : P s) (hrun : m s = (.ok a, t)) : Q a t := by
  have ht := h s hs
  rw [hrun] at ht
  exact ht

theorem error {s t : σ} {e : ε} (h : Triple P m Q R) (hs : P s) (hrun : m s = (.error e, t)) :
    R e t := by
  have ht := h s hs
  rw [hrun] at ht
  exact ht

theorem consequence (h : Triple P m Q R) (hpre : ∀ s, P' s → P s) (hpost : ∀ a s, Q a s → Q' a s)
    (herror : ∀ e s, R e s → M e s) : Triple P' m Q' M := by
  intro s hs
  have ht := h s (hpre s hs)
  split at ht
  · exact hpost _ _ ht
  · exact herror _ _ ht

/-- A program that does not raise meets any condition on errors. -/
theorem of_total (h : Triple P m Q fun _ _ => False) : Triple P m Q R :=
  h.consequence (fun _ hs => hs) (fun _ _ hs => hs) fun _ _ hs => hs.elim

theorem weaken (h : Triple P m Q R) (herror : ∀ e s, R e s → M e s) : Triple P m Q M :=
  h.consequence (fun _ hs => hs) (fun _ _ hs => hs) herror

theorem of_imp (h : Triple P m Q R) (hpre : ∀ s, P' s → P s) : Triple P' m Q R :=
  fun s hs => h s (hpre s hs)

theorem anyway : Triple P m (fun _ _ => True) (fun _ _ => True) := by
  intro s hs
  split
  · trivial
  · trivial

/-- A value of the state before may be fixed. -/
theorem fixing {f : σ → β} (h : ∀ b, Triple (fun s => P s ∧ f s = b) m Q R) : Triple P m Q R :=
  fun s hs => h (f s) s ⟨hs, rfl⟩

/-- The state before may be fixed. -/
theorem pointwise (h : ∀ s, P s → Triple (fun t => t = s) m Q R) : Triple P m Q R :=
  fun s hs => h s hs s rfl

/-- What the state before determines may be used as a fact. -/
theorem assuming {φ : Prop} (hφ : ∀ s, P s → φ) (h : φ → Triple P m Q R) : Triple P m Q R :=
  fun s hs => h (hφ s hs) s hs

theorem ret {a : α} (h : ∀ s, P s → Q a s) : Triple P (pure a) Q R := h

theorem raise {e : ε} (h : ∀ s, P s → R e s) : Triple P (Program.raise (α := α) e) Q R := h

theorem read {f : σ → α} (h : ∀ s, P s → Q (f s) s) : Triple P (Program.read f) Q R := h

theorem update {f : σ → σ} {Q : Unit → σ → Prop} (h : ∀ s, P s → Q () (f s)) :
    Triple P (Program.update f) Q R := h

theorem bind {f : α → Program σ ε β} {S : β → σ → Prop} (hm : Triple P m Q R)
    (hf : ∀ a, Triple (Q a) (f a) S R) : Triple P (m >>= f) S R := by
  intro s hs
  have ht := hm s hs
  change match Program.bind m f s with
    | (.ok a, t) => S a t
    | (.error e, t) => R e t
  rw [Program.bind]
  split at ht
  · exact hf _ _ ht
  · exact ht

/-- A value that is read before a program stays known in it. -/
theorem bind_read {f : σ → β} {k : β → Program σ ε α}
    (h : ∀ b, Triple (fun s => P s ∧ f s = b) (k b) Q R) :
    Triple P (Program.read f >>= k) Q R :=
  bind (Q := fun b s => P s ∧ f s = b) (read fun _ hs => ⟨hs, rfl⟩) h

theorem ite {c : Prop} [Decidable c] {m' : Program σ ε α} (h : c → Triple P m Q R)
    (h' : ¬ c → Triple P m' Q R) : Triple P (if c then m else m') Q R := by
  split
  · exact h (by assumption)
  · exact h' (by assumption)

theorem onlyIf {c : Prop} [Decidable c] {m : Program σ ε Unit} {Q : Unit → σ → Prop}
    (h : c → Triple P m Q R) (h' : ¬ c → ∀ s, P s → Q () s) :
    Triple P (Program.onlyIf c m) Q R := by
  rw [Program.onlyIf]
  exact ite h fun hc => h' hc

theorem handle {handler : ε → Program σ ε α} (hm : Triple P m Q M)
    (hhandler : ∀ e, Triple (M e) (handler e) Q R) : Triple P (m.handle handler) Q R := by
  intro s hs
  have ht := hm s hs
  rw [Program.handle]
  split at ht
  · exact ht
  · exact hhandler _ _ ht

theorem andFinally {after : Program σ ε Unit} (hm : Triple P m Q' M)
    (hok : ∀ a, Triple (Q' a) after (fun _ => Q a) R)
    (herror : ∀ e, Triple (M e) after (fun _ => R e) R) : Triple P (m.andFinally after) Q R := by
  intro s hs
  rw [Program.andFinally]
  cases hrun : m s with
  | mk r t =>
      cases r with
      | ok a =>
          have hafter := hok a t (hm.ok hs hrun)
          cases hend : after t with
          | mk r u =>
              rw [hend] at hafter
              simp only [hend]
              cases r <;> exact hafter
      | error e =>
          have hafter := herror e t (hm.error hs hrun)
          cases hend : after t with
          | mk r u =>
              rw [hend] at hafter
              simp only [hend]
              cases r <;> exact hafter

/-- A loop keeps what each of its rounds keeps. -/
theorem each {body : β → Program σ ε Unit} {xs : List β}
    (h : ∀ x ∈ xs, Triple P (body x) (fun _ => P) R) :
    Triple P (Program.each xs body) (fun _ => P) R := by
  induction xs with
  | nil => exact fun _ hs => hs
  | cons x xs ih =>
      exact bind (h x List.mem_cons_self) fun _ => ih fun y hy => h y (List.mem_cons_of_mem _ hy)

end Triple

end Program
