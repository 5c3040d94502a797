import Camex.Lib.Runs

/-!
# Machines with a log, and two machines side by side

* `Each`: a property of every entry of a log and the entries before it;
* `Machine.logged`: a machine with the list of what its steps gave out, the first one first;
* `ReachableUnder.unlogged`: a run with its log is a run;
* `ReachableUnder.logged_invariant`: the invariant rule for a state and its log;
* `Machine.interleave`: the steps of two machines in any order; a run of both is a run of each
  (`Reachable.left`, `Reachable.right`).
-/

namespace Camex.Lib

/-! ## Entries and the entries before them -/

section Each

variable {ο : Type*}

/-- The entries of `more` meet `P`, each with `pre` and the entries before it. -/
def EachAfter (P : List ο → ο → Prop) : List ο → List ο → Prop
  | _, [] => True
  | pre, a :: more => P pre a ∧ EachAfter P (pre ++ [a]) more

/-- Every entry of the log meets `P` with the entries before it. -/
def Each (P : List ο → ο → Prop) (log : List ο) : Prop := EachAfter P [] log

instance decidableEachAfter (P : List ο → ο → Prop) [∀ log a, Decidable (P log a)] :
    ∀ pre log, Decidable (EachAfter P pre log)
  | _, [] => isTrue trivial
  | pre, a :: more =>
    have := decidableEachAfter P (pre ++ [a]) more
    inferInstanceAs (Decidable (P pre a ∧ EachAfter P (pre ++ [a]) more))

instance (P : List ο → ο → Prop) [∀ log a, Decidable (P log a)] (log : List ο) : Decidable (Each P log) :=
  decidableEachAfter P [] log

variable {P : List ο → ο → Prop} {pre log more : List ο} {a : ο}

theorem eachAfter_append : EachAfter P pre (log ++ more) ↔ EachAfter P pre log ∧ EachAfter P (pre ++ log) more := by
  induction log generalizing pre with
  | nil => simp [EachAfter]
  | cons a log ih => simp [EachAfter, ih, and_assoc]

theorem each_append : Each P (log ++ more) ↔ Each P log ∧ EachAfter P log more := eachAfter_append

theorem each_concat : Each P (log ++ [a]) ↔ Each P log ∧ P log a := by
  rw [each_append]
  simp [EachAfter]

theorem Each.entry {post : List ο} (h : Each P (pre ++ a :: post)) : P pre a := (each_append.mp h).2.1

end Each

namespace Machine

variable {σ ε ο τ δ : Type*}

/-! ## Logs -/

/-- The machine with a log of what its steps give out. -/
def logged (M : Machine σ ε) (out : σ → ε → List ο) : Machine (σ × List ο) ε where
  start x := M.start x.1 ∧ x.2 = []
  next x e := (M.next x.1 e).map fun t => (t, x.2 ++ out x.1 e)

section Logged

variable {M : Machine σ ε} {out : σ → ε → List ο} {C : σ × List ο → ε → Prop}

theorem logged_next {x y : σ × List ο} {e : ε} (h : (M.logged out).next x e = some y) :
    M.next x.1 e = some y.1 ∧ y.2 = x.2 ++ out x.1 e := by
  obtain ⟨t, ht, rfl⟩ := Option.map_eq_some_iff.mp h
  exact ⟨ht, rfl⟩

/-- A run with its log is a run. -/
theorem ReachableUnder.unlogged {x : σ × List ο} (h : (M.logged out).ReachableUnder C x) : M.Reachable x.1 := by
  refine h.invariant (I := fun x => M.Reachable x.1) ?_ ?_
  · intro x hx
    exact ⟨x.1, [], hx.1, .nil _⟩
  · intro x e y hx _ hstep
    exact hx.step trivial (logged_next hstep).1

/-- The run with a log that keeps a part of each entry. -/
theorem ReachableUnder.filterLog {ο' : Type*} {f : ο → Option ο'} {D : σ × List ο' → ε → Prop}
    (hCD : ∀ s log e, C (s, log) e → D (s, log.filterMap f) e) {s : σ} {log : List ο}
    (h : (M.logged out).ReachableUnder C (s, log)) :
    (M.logged fun s e => (out s e).filterMap f).ReachableUnder D (s, log.filterMap f) := by
  refine h.invariant (I := fun x => ReachableUnder _ D (x.1, x.2.filterMap f)) ?_ ?_
  · rintro ⟨s, log⟩ ⟨hs, rfl⟩
    exact ⟨(s, []), [], ⟨hs, rfl⟩, .nil _⟩
  · rintro ⟨s, log⟩ e ⟨t, log'⟩ hx hc hstep
    obtain ⟨hnext, rfl⟩ := logged_next hstep
    refine hx.step (hCD s log e hc) ?_
    show (M.next s e).map _ = _
    rw [hnext, List.filterMap_append]
    rfl

/-- **The invariant rule** for a state and its log. -/
theorem ReachableUnder.logged_invariant {I : σ → List ο → Prop} (h0 : ∀ s, M.start s → I s [])
    (hI : ∀ s log e t, M.Reachable s → I s log → C (s, log) e → M.next s e = some t → I t (log ++ out s e))
    {s : σ} {log : List ο} (h : (M.logged out).ReachableUnder C (s, log)) : I s log := by
  suffices M.Reachable s ∧ I s log from this.2
  refine h.invariant (I := fun x => M.Reachable x.1 ∧ I x.1 x.2) ?_ ?_
  · rintro ⟨s, log⟩ ⟨hs, rfl⟩
    exact ⟨⟨s, [], hs, .nil _⟩, h0 s hs⟩
  · rintro ⟨s, log⟩ e ⟨t, log'⟩ ⟨hreach, hi⟩ hc hstep
    obtain ⟨hnext, rfl⟩ := logged_next hstep
    exact ⟨hreach.step trivial hnext, hI s log e t hreach hi hc hnext⟩

end Logged

/-! ## Two machines -/

/-- Both machines, a step of one or the other at a time, from start states that fit. -/
def interleave (M : Machine σ ε) (K : Machine τ δ) (fits : σ → τ → Prop) : Machine (σ × τ) (ε ⊕ δ) where
  start x := M.start x.1 ∧ K.start x.2 ∧ fits x.1 x.2
  next x e :=
    match e with
    | .inl e => (M.next x.1 e).map fun s => (s, x.2)
    | .inr d => (K.next x.2 d).map fun t => (x.1, t)

/-- What either of them gives out. -/
def outBoth {ο' : Type*} (out : σ → ε → List ο) (out' : τ → δ → List ο') (x : σ × τ) : ε ⊕ δ → List (ο ⊕ ο')
  | .inl e => (out x.1 e).map .inl
  | .inr d => (out' x.2 d).map .inr

/-- The entries of the first and of the second machine. -/
def lefts {α β : Type*} (log : List (α ⊕ β)) : List α := log.filterMap Sum.getLeft?
def rights {α β : Type*} (log : List (α ⊕ β)) : List β := log.filterMap Sum.getRight?

section Both

variable {α β : Type*} {log more : List (α ⊕ β)} {a : α} {b : β}

@[simp] theorem lefts_append : lefts (log ++ more) = lefts log ++ lefts more := List.filterMap_append
@[simp] theorem rights_append : rights (log ++ more) = rights log ++ rights more := List.filterMap_append
@[simp] theorem lefts_inl : lefts (.inl a :: log) = a :: lefts log := rfl
@[simp] theorem rights_inl : rights (.inl a :: log) = rights log := rfl
@[simp] theorem lefts_inr : lefts (.inr b :: log) = lefts log := rfl
@[simp] theorem rights_inr : rights (.inr b :: log) = b :: rights log := rfl

@[simp] theorem lefts_map_inl (l : List α) : lefts (l.map (Sum.inl : α → α ⊕ β)) = l := by
  induction l with
  | nil => rfl
  | cons a l ih => rw [List.map_cons, lefts_inl, ih]

@[simp] theorem lefts_map_inr (l : List β) : lefts (l.map (Sum.inr : β → α ⊕ β)) = [] := by
  induction l with
  | nil => rfl
  | cons b l ih => rw [List.map_cons, lefts_inr, ih]

@[simp] theorem rights_map_inl (l : List α) : rights (l.map (Sum.inl : α → α ⊕ β)) = [] := by
  induction l with
  | nil => rfl
  | cons a l ih => rw [List.map_cons, rights_inl, ih]

@[simp] theorem rights_map_inr (l : List β) : rights (l.map (Sum.inr : β → α ⊕ β)) = l := by
  induction l with
  | nil => rfl
  | cons b l ih => rw [List.map_cons, rights_inr, ih]

theorem mem_lefts : a ∈ lefts log ↔ Sum.inl a ∈ log := by
  unfold lefts
  rw [List.mem_filterMap]
  constructor
  · rintro ⟨x, hx, ha⟩
    cases x with
    | inl y =>
      cases ha
      exact hx
    | inr y => cases ha
  · exact fun h => ⟨_, h, rfl⟩

theorem mem_rights : b ∈ rights log ↔ Sum.inr b ∈ log := by
  unfold rights
  rw [List.mem_filterMap]
  constructor
  · rintro ⟨x, hx, hb⟩
    cases x with
    | inl y => cases hb
    | inr y =>
      cases hb
      exact hx
  · exact fun h => ⟨_, h, rfl⟩

end Both

section Interleave

variable {ο' : Type*} {M : Machine σ ε} {K : Machine τ δ} {fits : σ → τ → Prop} {out : σ → ε → List ο}
  {out' : τ → δ → List ο'}

theorem interleave_inl {x y : σ × τ} {e : ε} (h : (M.interleave K fits).next x (.inl e) = some y) :
    M.next x.1 e = some y.1 ∧ y.2 = x.2 := by
  obtain ⟨s, hs, rfl⟩ := Option.map_eq_some_iff.mp h
  exact ⟨hs, rfl⟩

theorem interleave_inr {x y : σ × τ} {d : δ} (h : (M.interleave K fits).next x (.inr d) = some y) :
    K.next x.2 d = some y.2 ∧ y.1 = x.1 := by
  obtain ⟨t, ht, rfl⟩ := Option.map_eq_some_iff.mp h
  exact ⟨ht, rfl⟩

/-- **The first machine's part of a run**, with its part of the log. -/
theorem Reachable.left {x : σ × τ} {log : List (ο ⊕ ο')}
    (h : ((M.interleave K fits).logged (outBoth out out')).Reachable (x, log)) :
    (M.logged out).Reachable (x.1, lefts log) := by
  refine h.invariant (I := fun y => (M.logged out).Reachable (y.1.1, lefts y.2)) ?_ ?_
  · rintro ⟨x, log⟩ ⟨hx, rfl⟩
    exact ⟨(x.1, []), [], ⟨hx.1, rfl⟩, .nil _⟩
  rintro ⟨x, log⟩ e ⟨y, log'⟩ hx _ hstep
  obtain ⟨hnext, rfl⟩ := logged_next hstep
  cases e with
  | inl e =>
    refine hx.step (e := e) trivial ?_
    show (M.next x.1 e).map _ = _
    rw [(interleave_inl hnext).1, lefts_append, outBoth, lefts_map_inl]
    rfl
  | inr d =>
    rw [show y.1 = x.1 from (interleave_inr hnext).2, lefts_append, outBoth, lefts_map_inr, List.append_nil]
    exact hx

/-- **The second machine's part of a run**, with its part of the log. -/
theorem Reachable.right {x : σ × τ} {log : List (ο ⊕ ο')}
    (h : ((M.interleave K fits).logged (outBoth out out')).Reachable (x, log)) :
    (K.logged out').Reachable (x.2, rights log) := by
  refine h.invariant (I := fun y => (K.logged out').Reachable (y.1.2, rights y.2)) ?_ ?_
  · rintro ⟨x, log⟩ ⟨hx, rfl⟩
    exact ⟨(x.2, []), [], ⟨hx.2.1, rfl⟩, .nil _⟩
  rintro ⟨x, log⟩ e ⟨y, log'⟩ hx _ hstep
  obtain ⟨hnext, rfl⟩ := logged_next hstep
  cases e with
  | inl e =>
    rw [show y.2 = x.2 from (interleave_inl hnext).2, rights_append, outBoth, rights_map_inl, List.append_nil]
    exact hx
  | inr d =>
    refine hx.step (e := d) trivial ?_
    show (K.next x.2 d).map _ = _
    rw [(interleave_inr hnext).1, rights_append, outBoth, rights_map_inr]
    rfl

end Interleave

end Machine

end Camex.Lib
