import Mathlib.Data.List.Induction

/-!
# Runs of a transition function

A machine is a function `step : σ → α → Option σ`: an action either takes a
state to its successor or is not enabled there.  `exec` folds a list of actions,
so a run is an equation `exec step s as = some s'` and a concrete run is checked
by evaluation.

The rules below are the ways the developments use a run.

* `exec_invariant` carries a predicate that every step preserves from the first
  state to the last, and `exec_invariant_along` does so when the steps are only
  known to preserve it under a side condition `ok`, which `Along` states of the
  whole run.
* `exec_rel` carries a preorder from the first state to the last.
* `exec_latch` says when a predicate that is never lost holds: it did at first, or some step of the
  run is of the kind that brings it about (`Happens`).
* `exec_append_eq_some` and `exec_mid_eq_some` cut a run at an action, so that a
  statement about two moments of a run becomes one about the run between them.
-/

namespace Runs

variable {σ α : Type*} {step : σ → α → Option σ}

/-- The state a list of actions leads to, if each of them is enabled in turn. -/
def exec (step : σ → α → Option σ) : σ → List α → Option σ
  | s, [] => some s
  | s, a :: as => (step s a).bind fun s' => exec step s' as

theorem exec_cons (s : σ) (a : α) (as : List α) :
    exec step s (a :: as) = (step s a).bind fun s' => exec step s' as := rfl

theorem exec_cons_eq_some {s s' : σ} {a : α} {as : List α} :
    exec step s (a :: as) = some s' ↔ ∃ m, step s a = some m ∧ exec step m as = some s' := by
  rw [exec_cons, Option.bind_eq_some_iff]

theorem exec_append (s : σ) (as bs : List α) :
    exec step s (as ++ bs) = (exec step s as).bind fun s' => exec step s' bs := by
  induction as generalizing s with
  | nil => rfl
  | cons a as ih =>
      rw [List.cons_append, exec_cons, exec_cons, Option.bind_assoc]
      exact congrArg _ (funext fun s' => ih s')

theorem exec_append_eq_some {s s' : σ} {as bs : List α} :
    exec step s (as ++ bs) = some s' ↔
      ∃ m, exec step s as = some m ∧ exec step m bs = some s' := by
  rw [exec_append, Option.bind_eq_some_iff]

/-- A run that takes the action `a` somewhere is a run to the state before it, the
step, and a run from the state after it. -/
theorem exec_mid_eq_some {s s' : σ} {as bs : List α} {a : α} :
    exec step s (as ++ a :: bs) = some s' ↔
      ∃ m m', exec step s as = some m ∧ step m a = some m' ∧ exec step m' bs = some s' := by
  rw [exec_append_eq_some]
  constructor
  · rintro ⟨m, h, hr⟩
    obtain ⟨m', hs, hb⟩ := exec_cons_eq_some.mp hr
    exact ⟨m, m', h, hs, hb⟩
  · rintro ⟨m, m', h, hs, hb⟩
    exact ⟨m, h, exec_cons_eq_some.mpr ⟨m', hs, hb⟩⟩

theorem exec_snoc {s m s' : σ} {as : List α} {a : α} (h : exec step s as = some m)
    (hs : step m a = some s') : exec step s (as ++ [a]) = some s' :=
  exec_mid_eq_some.mpr ⟨m, s', h, hs, rfl⟩

/-! ## Carrying a predicate along a run -/

/-- A predicate that every step preserves holds at the end of a run. -/
theorem exec_invariant {I : σ → Prop} (hstep : ∀ s a s', I s → step s a = some s' → I s')
    {s s' : σ} {as : List α} (h : exec step s as = some s') (hi : I s) : I s' := by
  induction as generalizing s with
  | nil => cases h; exact hi
  | cons a as ih =>
      obtain ⟨m, hs, hr⟩ := exec_cons_eq_some.mp h
      exact ih hr (hstep s a m hi hs)

/-- Every step of the run from `s` along the list is taken where `ok` allows it. -/
def Along (step : σ → α → Option σ) (ok : σ → α → Prop) : σ → List α → Prop
  | _, [] => True
  | s, a :: as => ok s a ∧ ∀ m, step s a = some m → Along step ok m as

theorem Along.cons {ok : σ → α → Prop} {s m : σ} {a : α} {as : List α}
    (h : Along step ok s (a :: as)) (hs : step s a = some m) :
    ok s a ∧ Along step ok m as := ⟨h.1, h.2 m hs⟩

instance Along.decide (step : σ → α → Option σ) (ok : σ → α → Prop)
    [∀ s a, Decidable (ok s a)] : ∀ (s : σ) (as : List α), Decidable (Along step ok s as)
  | _, [] => .isTrue trivial
  | s, a :: as =>
      have : Decidable (∀ m, step s a = some m → Along step ok m as) :=
        match h : step s a with
        | none => .isTrue fun _ hm => by cases hm
        | some m =>
            match Along.decide step ok m as with
            | .isTrue hm => .isTrue fun _ e => by cases e; exact hm
            | .isFalse hm => .isFalse fun hall => hm (hall m rfl)
      instDecidableAnd

/-- A predicate that every allowed step preserves holds at the end of an allowed run. -/
theorem exec_invariant_along {ok : σ → α → Prop} {I : σ → Prop}
    (hstep : ∀ s a s', I s → ok s a → step s a = some s' → I s')
    {s s' : σ} {as : List α} (h : exec step s as = some s') (hok : Along step ok s as)
    (hi : I s) : I s' := by
  induction as generalizing s with
  | nil => cases h; exact hi
  | cons a as ih =>
      obtain ⟨m, hs, hr⟩ := exec_cons_eq_some.mp h
      obtain ⟨ha, hrest⟩ := hok.cons hs
      exact ih hr hrest (hstep s a m hi ha hs)

theorem Along.of_forall {ok : σ → α → Prop} {s : σ} {as : List α} (h : ∀ a ∈ as, ∀ s, ok s a) :
    Along step ok s as := by
  induction as generalizing s with
  | nil => trivial
  | cons a as ih =>
      exact ⟨h a List.mem_cons_self s, fun m _ => ih fun b hb => h b (List.mem_cons_of_mem a hb)⟩

theorem Along.mono {ok ok' : σ → α → Prop} (himp : ∀ s a, ok s a → ok' s a) {s : σ}
    {as : List α} (h : Along step ok s as) : Along step ok' s as := by
  induction as generalizing s with
  | nil => trivial
  | cons a as ih => exact ⟨himp s a h.1, fun m hs => ih (h.2 m hs)⟩

theorem Along.and {ok ok' : σ → α → Prop} {s : σ} {as : List α} (h : Along step ok s as)
    (h' : Along step ok' s as) : Along step (fun s a => ok s a ∧ ok' s a) s as := by
  induction as generalizing s with
  | nil => trivial
  | cons a as ih => exact ⟨⟨h.1, h'.1⟩, fun m hs => ih (h.2 m hs) (h'.2 m hs)⟩

/-- The part of an allowed run before a state, and the part after it. -/
theorem Along.append {ok : σ → α → Prop} {s m : σ} {as bs : List α}
    (h : Along step ok s (as ++ bs)) (hr : exec step s as = some m) :
    Along step ok s as ∧ Along step ok m bs := by
  induction as generalizing s with
  | nil =>
      cases hr
      exact ⟨trivial, h⟩
  | cons a as ih =>
      obtain ⟨n, hs, hrest⟩ := exec_cons_eq_some.mp hr
      obtain ⟨ha, hcons⟩ := Along.cons h hs
      refine ⟨⟨ha, fun n' hs' => ?_⟩, (ih hcons hrest).2⟩
      rw [hs] at hs'
      cases hs'
      exact (ih hcons hrest).1

/-- Two side conditions that agree wherever an invariant holds allow the same runs. -/
theorem Along.congr {I : σ → Prop} {ok ok' : σ → α → Prop}
    (hstep : ∀ s a s', I s → step s a = some s' → I s')
    (hiff : ∀ s a, I s → (ok s a ↔ ok' s a)) {s : σ} {as : List α} (hi : I s) :
    Along step ok s as ↔ Along step ok' s as := by
  induction as generalizing s with
  | nil => exact Iff.rfl
  | cons a as ih =>
      constructor
      · rintro ⟨ha, hrest⟩
        exact ⟨(hiff s a hi).mp ha, fun m hm => (ih (hstep s a m hi hm)).mp (hrest m hm)⟩
      · rintro ⟨ha, hrest⟩
        exact ⟨(hiff s a hi).mpr ha, fun m hm => (ih (hstep s a m hi hm)).mpr (hrest m hm)⟩

/-- A reflexive and transitive relation that every step meets relates the two ends
of a run. -/
theorem exec_rel {R : σ → σ → Prop} (hrefl : ∀ s, R s s)
    (htrans : ∀ a b c, R a b → R b c → R a c)
    (hstep : ∀ s a s', step s a = some s' → R s s') {s s' : σ} {as : List α}
    (h : exec step s as = some s') : R s s' := by
  induction as generalizing s with
  | nil => cases h; exact hrefl _
  | cons a as ih =>
      obtain ⟨m, hs, hr⟩ := exec_cons_eq_some.mp h
      exact htrans s m s' (hstep s a m hs) (ih hr)

/-- Where a run enters a predicate it did not start in, some step enters it. -/
theorem exec_enters {P : σ → Prop} {s s' : σ} {as : List α}
    (h : exec step s as = some s') (hs : ¬ P s) (hs' : P s') :
    ∃ pre a post m m', as = pre ++ a :: post ∧ exec step s pre = some m ∧
      step m a = some m' ∧ exec step m' post = some s' ∧ ¬ P m ∧ P m' := by
  induction as generalizing s with
  | nil => cases h; exact absurd hs' hs
  | cons a as ih =>
      obtain ⟨m, hm, hr⟩ := exec_cons_eq_some.mp h
      by_cases hp : P m
      · exact ⟨[], a, as, s, m, rfl, rfl, hm, hr, hs, hp⟩
      · obtain ⟨pre, b, post, n, n', rfl, h1, h2, h3, h4, h5⟩ := ih hr hp
        exact ⟨a :: pre, b, post, n, n', rfl, exec_cons_eq_some.mpr ⟨m, hm, h1⟩, h2, h3, h4, h5⟩

/-- Every state of the run from `s` along the list satisfies the predicate. -/
def Throughout (step : σ → α → Option σ) (P : σ → Prop) (s : σ) (as : List α) : Prop :=
  ∀ pre post m, as = pre ++ post → exec step s pre = some m → P m

theorem Throughout.nil {P : σ → Prop} {s : σ} (h : P s) : Throughout step P s [] := by
  rintro pre post m happ hm
  obtain ⟨rfl, rfl⟩ := List.nil_eq_append_iff.mp happ
  cases hm
  exact h

theorem Throughout.snoc {P : σ → Prop} {s s' : σ} {as : List α} {a : α}
    (h : Throughout step P s as) (hr : exec step s (as ++ [a]) = some s') (hs' : P s') :
    Throughout step P s (as ++ [a]) := by
  intro pre post m happ hm
  rcases List.eq_nil_or_concat post with rfl | ⟨post, b, rfl⟩
  · rw [List.append_nil] at happ
    rw [happ, hm] at hr
    cases hr
    exact hs'
  · rw [List.concat_eq_append, ← List.append_assoc] at happ
    exact h pre post m (List.append_inj_left' happ rfl) hm

/-- Every state of an allowed run satisfies what the allowed steps preserve. -/
theorem Along.throughout {ok : σ → α → Prop} {I : σ → Prop}
    (hstep : ∀ s a s', I s → ok s a → step s a = some s' → I s') {s : σ} {as : List α}
    (hok : Along step ok s as) (hi : I s) : Throughout step I s as := by
  rintro pre post m rfl hm
  exact exec_invariant_along hstep hm (hok.append hm).1 hi

theorem Throughout.mono {P Q : σ → Prop} (himp : ∀ s, P s → Q s) {s : σ} {as : List α}
    (h : Throughout step P s as) : Throughout step Q s as :=
  fun pre post m happ hm => himp m (h pre post m happ hm)

/-- Where only an allowed step can end in a predicate, a run that stays in it is allowed. -/
theorem Throughout.along {ok : σ → α → Prop} {I P : σ → Prop}
    (hstep : ∀ s a s', I s → step s a = some s' → I s')
    (hok : ∀ s a, I s → P s → (∀ s', step s a = some s' → P s') → ok s a) {s : σ} {as : List α}
    (h : Throughout step P s as) (hi : I s) : Along step ok s as := by
  induction as generalizing s with
  | nil => trivial
  | cons a as ih =>
      have hrest : ∀ m, step s a = some m → Throughout step P m as := by
        intro m hm pre post n happ hn
        exact h (a :: pre) post n (congrArg (a :: ·) happ) (exec_cons_eq_some.mpr ⟨m, hm, hn⟩)
      exact ⟨hok s a hi (h [] (a :: as) s rfl rfl) fun m hm => hrest m hm [] as m rfl rfl,
        fun m hm => ih (hrest m hm) (hstep s a m hi hm)⟩

/-- A step of the given kind is taken somewhere in the run from `s` along the list. -/
def Happens (step : σ → α → Option σ) (kind : σ → α → σ → Prop) (s : σ) (as : List α) : Prop :=
  ∃ pre a post m m', as = pre ++ a :: post ∧ exec step s pre = some m ∧ step m a = some m' ∧
    kind m a m'

theorem not_happens_nil {kind : σ → α → σ → Prop} {s : σ} : ¬ Happens step kind s [] := by
  rintro ⟨pre, a, post, m, m', happ, -⟩
  exact List.cons_ne_nil a post (List.append_eq_nil_iff.mp happ.symm).2

theorem happens_cons {kind : σ → α → σ → Prop} {s m : σ} {a : α} {as : List α}
    (hs : step s a = some m) :
    Happens step kind s (a :: as) ↔ kind s a m ∨ Happens step kind m as := by
  constructor
  · rintro ⟨pre, b, post, n, n', happ, hpre, hb, hkind⟩
    cases pre with
    | nil =>
        cases hpre
        cases happ
        rw [hs] at hb
        cases hb
        exact .inl hkind
    | cons c pre =>
        cases happ
        obtain ⟨m', hm, hpre⟩ := exec_cons_eq_some.mp hpre
        rw [hs] at hm
        cases hm
        exact .inr ⟨pre, b, post, n, n', rfl, hpre, hb, hkind⟩
  · rintro (hkind | ⟨pre, b, post, n, n', rfl, hpre, hb, hkind⟩)
    · exact ⟨[], a, as, s, m, rfl, rfl, hs, hkind⟩
    · exact ⟨a :: pre, b, post, n, n', rfl, exec_cons_eq_some.mpr ⟨m, hs, hpre⟩, hb, hkind⟩

/-- Where a step of a kind brings a predicate about, and nothing else does or ends it, the predicate
holds at the end of a run when it did at first, or when such a step is taken. -/
theorem exec_latch {kind : σ → α → σ → Prop} {I P : σ → Prop}
    (hstep : ∀ s a s', I s → step s a = some s' → I s' ∧ (P s' ↔ P s ∨ kind s a s')) {s s' : σ}
    {as : List α} (h : exec step s as = some s') (hi : I s) :
    P s' ↔ P s ∨ Happens step kind s as := by
  induction as generalizing s with
  | nil =>
      cases h
      exact (or_iff_left not_happens_nil).symm
  | cons a as ih =>
      obtain ⟨m, hs, hr⟩ := exec_cons_eq_some.mp h
      obtain ⟨hm, hiff⟩ := hstep s a m hi hs
      rw [ih hr hm, hiff, happens_cons hs, or_assoc]

/-- Where a run ends in a predicate it did not start in, it has a last entry into it:
some step enters it and the run stays there. -/
theorem exec_last_enters {P : σ → Prop} {s s' : σ} {as : List α}
    (h : exec step s as = some s') (hs : ¬ P s) (hs' : P s') :
    ∃ pre a post m m', as = pre ++ a :: post ∧ exec step s pre = some m ∧
      step m a = some m' ∧ exec step m' post = some s' ∧ ¬ P m ∧ Throughout step P m' post := by
  induction as using List.reverseRecOn generalizing s' with
  | nil => cases h; exact absurd hs' hs
  | append_singleton as b ih =>
      obtain ⟨n, n', hn, hb, hnil⟩ := exec_mid_eq_some.mp h
      cases hnil
      by_cases hp : P n
      · obtain ⟨pre, a, post, m, m', rfl, h1, h2, h3, h4, h5⟩ := ih hn hp
        have hlast := exec_snoc h3 hb
        exact ⟨pre, a, post ++ [b], m, m', by simp, h1, h2, hlast, h4, h5.snoc hlast hs'⟩
      · exact ⟨as, b, [], n, s', rfl, hn, hb, rfl, hp, .nil hs'⟩

end Runs
