import Mathlib.Data.List.Forall2
import Patchbay.Graph.Store

/-!
# Running tasks

What `Task.exec` makes of each way to put tasks together, so that later proofs run a task without
opening its monad:

* `Task.exec_bind`: a task that fails is not gone on with, and keeps the state that it reached;
* `Task.exec_bind_ok_iff`: a sequence of two succeeds exactly when both do;
* `Task.exec_onPart`: a task on a part leaves the rest of the state alone;
* `Task.Keeps`, `Task.Ends`, `Task.Safe`, `Task.Settles`: what a task does to the states with a
  property, with one lemma for each way to put tasks together.
-/

namespace Patchbay.Task

variable {State Part α β : Type}

@[simp] theorem exec_get (s : State) : (get : Task State State).exec s = (.ok s, s) := rfl

@[simp] theorem exec_modify (f : State → State) (s : State) :
    (modify f : Task State Unit).exec s = (.ok (), f s) := rfl

@[simp] theorem exec_ofExcept (e : Except Fault α) (s : State) :
    (ofExcept e : Task State α).exec s = (e, s) := rfl

theorem exec_bind (t : Task State α) (f : α → Task State β) (s : State) :
    (t >>= f).exec s =
      match t.exec s with
      | (.ok a, s') => (f a).exec s'
      | (.error e, s') => (.error e, s') := by
  show ((ExceptT.run t >>= ExceptT.bindCont f : StateM State (Except Fault β))).run s = _
  rw [StateT.run_bind]
  show (ExceptT.bindCont f (t.exec s).1).run (t.exec s).2 = _
  rcases t.exec s with ⟨e | a, s'⟩ <;> rfl

theorem exec_bind_ok {t : Task State α} {f : α → Task State β} {s s' : State} {a : α}
    (h : t.exec s = (.ok a, s')) : (t >>= f).exec s = (f a).exec s' := by
  rw [exec_bind, h]

theorem exec_bind_error {t : Task State α} {f : α → Task State β} {s s' : State} {e : Fault}
    (h : t.exec s = (.error e, s')) : (t >>= f).exec s = (.error e, s') := by
  rw [exec_bind, h]

theorem exec_get_bind (f : State → Task State β) (s : State) :
    (get >>= f).exec s = (f s).exec s := exec_bind_ok (exec_get s)

/-- A sequence of two tasks succeeds exactly when the first does and the second does from there. -/
theorem exec_bind_ok_iff {t : Task State α} {f : α → Task State β} {s s' : State} {b : β} :
    (t >>= f).exec s = (.ok b, s') ↔
      ∃ a s₁, t.exec s = (.ok a, s₁) ∧ (f a).exec s₁ = (.ok b, s') := by
  rw [exec_bind]
  rcases t.exec s with ⟨e | a, s₁⟩
  · simp
  · constructor
    · intro h
      exact ⟨a, s₁, rfl, h⟩
    · rintro ⟨a', s₂, h, h'⟩
      cases h
      exact h'

/-- A sequence of two tasks fails where the first does, or the second after it. -/
theorem exec_bind_error_iff {t : Task State α} {f : α → Task State β} {s s' : State} {e : Fault} :
    (t >>= f).exec s = (.error e, s') ↔ t.exec s = (.error e, s') ∨
      ∃ a s₁, t.exec s = (.ok a, s₁) ∧ (f a).exec s₁ = (.error e, s') := by
  rw [exec_bind]
  rcases t.exec s with ⟨e' | a, s₁⟩
  · simp
  · simp only [Prod.mk.injEq, reduceCtorEq, false_and, Except.ok.injEq, false_or]
    constructor
    · intro h
      exact ⟨a, s₁, ⟨rfl, rfl⟩, h⟩
    · rintro ⟨a', s₂, ⟨rfl, rfl⟩, h'⟩
      exact h'

theorem eq_ok_of_toOption {e : Except Fault α} {a : α} (h : e.toOption = some a) : e = .ok a := by
  cases e with
  | error e => cases h
  | ok b =>
    cases h
    rfl

theorem exists_of_bind_eq_ok {e : Except Fault α} {f : α → Except Fault β} {b : β}
    (h : e >>= f = .ok b) : ∃ a, e = .ok a ∧ f a = .ok b := by
  cases e with
  | error e => cases h
  | ok a => exact ⟨a, rfl, h⟩

theorem forall₂_of_mapM {f : α → Except Fault β} {as : List α} {bs : List β}
    (h : as.mapM f = .ok bs) : List.Forall₂ (fun a b => f a = .ok b) as bs := by
  induction as generalizing bs with
  | nil =>
    cases h
    exact .nil
  | cons a as ih =>
    rw [List.mapM_cons] at h
    obtain ⟨b, hhead, h⟩ := exists_of_bind_eq_ok h
    obtain ⟨bs', htail, h⟩ := exists_of_bind_eq_ok h
    cases h
    exact .cons hhead (ih htail)

theorem error_of_mapM {f : α → Except Fault β} {as : List α} {e : Fault}
    (h : as.mapM f = .error e) : ∃ a ∈ as, f a = .error e := by
  induction as with
  | nil => cases h
  | cons a as ih =>
    rw [List.mapM_cons] at h
    cases ha : f a with
    | error e' =>
      rw [ha] at h
      cases h
      exact ⟨a, List.mem_cons_self, ha⟩
    | ok b =>
      cases has : as.mapM f with
      | error e' =>
        rw [ha, has] at h
        cases h
        obtain ⟨a', ha', herror⟩ := ih has
        exact ⟨a', List.mem_cons_of_mem a ha', herror⟩
      | ok bs =>
        rw [ha, has] at h
        cases h

theorem mapM_eq_some_iff {f : α → Option β} {as : List α} {bs : List β} :
    as.mapM f = some bs ↔ List.Forall₂ (fun a b => f a = some b) as bs := by
  induction as generalizing bs with
  | nil =>
    rw [List.mapM_nil, List.forall₂_nil_left_iff]
    exact Option.some_inj.trans eq_comm
  | cons a as ih =>
    rw [List.mapM_cons, List.forall₂_cons_left_iff]
    constructor
    · intro h
      obtain ⟨b, hb, h⟩ := Option.bind_eq_some_iff.1 h
      obtain ⟨bs', hbs', h⟩ := Option.bind_eq_some_iff.1 h
      exact ⟨b, bs', hb, ih.1 hbs', (Option.some.inj h).symm⟩
    · rintro ⟨b, bs', hb, hbs', rfl⟩
      rw [hb, ih.2 hbs']
      rfl

theorem exec_map (f : α → β) (t : Task State α) (s : State) :
    (f <$> t).exec s = ((t.exec s).1.map f, (t.exec s).2) := by
  rw [map_eq_pure_bind, exec_bind]
  rcases t.exec s with ⟨e | a, s'⟩ <;> rfl

theorem exec_onPart (get : State → Part) (put : Part → State → State) (t : Task Part α)
    (s : State) :
    (onPart get put t).exec s = ((t.exec (get s)).1, put (t.exec (get s)).2 s) := rfl

/-! ## What a task keeps -/

/-- The task keeps a property of the state, however it ends. -/
def Keeps (P : State → Prop) (t : Task State α) : Prop := ∀ s, P s → P (t.exec s).2

variable {P : State → Prop}

theorem Keeps.of_exec {t : Task State α} (ht : t.Keeps P) {s s' : State} {outcome : Except Fault α}
    (h : t.exec s = (outcome, s')) (hs : P s) : P s' := by
  have hs' := ht s hs
  rw [h] at hs'
  exact hs'

theorem keeps_pure (a : α) : (pure a : Task State α).Keeps P := fun _ hs => hs

theorem keeps_throw (e : Fault) : (throw e : Task State α).Keeps P := fun _ hs => hs

theorem keeps_ofExcept (e : Except Fault α) : (ofExcept e : Task State α).Keeps P :=
  fun _ hs => hs

theorem keeps_modify {f : State → State} (h : ∀ s, P s → P (f s)) :
    (modify f : Task State Unit).Keeps P := h

theorem Keeps.bind {t : Task State α} {f : α → Task State β} (ht : t.Keeps P)
    (hf : ∀ a, (f a).Keeps P) : (t >>= f).Keeps P := by
  intro s hs
  have hmid := ht s hs
  rw [exec_bind]
  rcases h : t.exec s with ⟨e | a, s'⟩
  · rw [h] at hmid
    exact hmid
  · rw [h] at hmid
    exact hf a s' hmid

theorem keeps_get_bind {f : State → Task State β} (h : ∀ s, P s → (f s).Keeps P) :
    (get >>= f).Keeps P := by
  intro s hs
  rw [exec_get_bind]
  exact h s hs s hs

theorem keeps_ofExcept_bind {e : Except Fault α} {f : α → Task State β}
    (h : ∀ a, e = .ok a → (f a).Keeps P) : (ofExcept e >>= f).Keeps P := by
  intro s hs
  cases e with
  | error e => exact hs
  | ok a => exact h a rfl s hs

/-! ## How a task ends -/

/-- From a state with the property `P` the task ends in an outcome and a state as `Q` says. -/
def Ends (P : State → Prop) (t : Task State α) (Q : Except Fault α → State → Prop) : Prop :=
  ∀ s, P s → Q (t.exec s).1 (t.exec s).2

variable {Q Q' : Except Fault α → State → Prop} {R : Except Fault β → State → Prop}

theorem Ends.imp {P' : State → Prop} {t : Task State α} (h : Ends P t Q) (hP : ∀ s, P' s → P s)
    (hQ : ∀ outcome s, Q outcome s → Q' outcome s) : Ends P' t Q' :=
  fun s hs => hQ _ _ (h s (hP s hs))

theorem ends_pure {a : α} (h : ∀ s, P s → Q (.ok a) s) : Ends P (pure a) Q := h

/-- A sequence of two tasks ends as the second one does, or as the first one does if that fails. -/
theorem Ends.bind {t : Task State α} {f : α → Task State β} (ht : Ends P t Q)
    (hf : ∀ a, Ends (Q (.ok a)) (f a) R) (he : ∀ e s, Q (.error e) s → R (.error e) s) :
    Ends P (t >>= f) R := by
  intro s hs
  have hmid := ht s hs
  rw [exec_bind]
  rcases h : t.exec s with ⟨e | a, s'⟩
  · rw [h] at hmid
    exact he e s' hmid
  · rw [h] at hmid
    exact hf a s' hmid

theorem ends_get_bind {f : State → Task State β} (h : ∀ s, P s → Ends (· = s) (f s) R) :
    Ends P (get >>= f) R := by
  intro s hs
  rw [exec_get_bind]
  exact h s hs s rfl

/-- The task keeps a property of the state, and all faults that it fails with are of a kind. -/
def Safe (P : State → Prop) (E : Fault → Prop) (t : Task State α) : Prop :=
  Ends P t fun outcome s => P s ∧ ∀ e, outcome = .error e → E e

variable {E : Fault → Prop}

theorem safe_pure (a : α) : Safe P E (pure a : Task State α) := fun _ hs => ⟨hs, nofun⟩

theorem safe_throw {e : Fault} (h : E e) : Safe P E (throw e : Task State α) := by
  refine fun _ hs => ⟨hs, fun e' he' => ?_⟩
  cases he'
  exact h

theorem safe_ofExcept {e : Except Fault α} (h : ∀ e', e = .error e' → E e') :
    Safe P E (ofExcept e : Task State α) := fun _ hs => ⟨hs, h⟩

theorem Safe.bind {t : Task State α} {f : α → Task State β} (ht : Safe P E t)
    (hf : ∀ a, Safe P E (f a)) : Safe P E (t >>= f) :=
  Ends.bind ht (fun a => (hf a).imp (fun _ hs => hs.1) fun _ _ h => h)
    fun _ _ h => ⟨h.1, fun _ he => h.2 _ (congrArg Except.error (Except.error.inj he))⟩

theorem safe_get_bind {f : State → Task State β} (h : ∀ s, P s → Safe P E (f s)) :
    Safe P E (get >>= f) :=
  ends_get_bind fun s hs => (h s hs).imp (fun _ hs' => hs' ▸ hs) fun _ _ h => h

/-! ## Tasks that succeed on a condition -/

/-- The outcome is `a` if `C` holds, and a fault if it does not. -/
def Answers (C : Prop) (a : α) (outcome : Except Fault α) : Prop :=
  ∀ b, outcome = .ok b ↔ C ∧ b = a

variable {C C' : Prop} {a : α} {b : β} {e : Except Fault α}

theorem answers_ok (a : α) : Answers True a (.ok a) := by
  intro b
  rw [true_and, Except.ok.injEq, eq_comm]

theorem answers_error (hC : ¬ C) (a : α) (e : Fault) : Answers C a (.error e) :=
  fun _ => iff_of_false nofun fun h => hC h.1

theorem Answers.congr (h : Answers C a e) (hC : C ↔ C') : Answers C' a e :=
  fun b => (h b).trans (and_congr_left' hC)

theorem Answers.ok_iff (h : Answers C a e) : (∃ b, e = .ok b) ↔ C :=
  ⟨fun ⟨b, hb⟩ => ((h b).1 hb).1, fun hC => ⟨a, (h a).2 ⟨hC, rfl⟩⟩⟩

theorem Answers.bind {f : α → Except Fault β} (he : Answers C a e) (hf : Answers C' b (f a)) :
    Answers (C ∧ C') b (e >>= f) := by
  cases e with
  | error e => exact answers_error (fun h => nomatch (he a).2 ⟨h.1, rfl⟩) b e
  | ok a' =>
    obtain ⟨hC, rfl⟩ := (he a').1 rfl
    exact hf.congr (and_iff_right hC).symm

theorem Answers.map (he : Answers C a e) (f : α → β) :
    Answers C (f a) (e >>= fun a => pure (f a)) :=
  Answers.congr (Answers.bind (f := fun a => pure (f a)) he (answers_ok (f a)))
    (iff_of_eq (and_true C))

theorem Answers.mapM {f : α → Except Fault β} {D : α → Prop} {g : α → β} {as : List α}
    (h : ∀ a ∈ as, Answers (D a) (g a) (f a)) :
    Answers (∀ a ∈ as, D a) (as.map g) (as.mapM f) := by
  induction as with
  | nil => exact (answers_ok []).congr (by simp)
  | cons a as ih =>
    have hrest := (ih fun a' ha' => h a' (List.mem_cons_of_mem a ha')).map (g a :: ·)
    rw [List.mapM_cons, List.map_cons]
    exact Answers.congr (Answers.bind (f := fun b => as.mapM f >>= fun bs => pure (b :: bs))
      (h a List.mem_cons_self) hrest) List.forall_mem_cons.symm

/-- The task keeps a property of the state, and its answer is `a` if `C` holds. If it does not, the
task fails. -/
def Settles (P : State → Prop) (C : Prop) (a : α) (t : Task State α) : Prop :=
  Ends P t fun outcome s => P s ∧ Answers C a outcome

theorem settles_pure (a : α) : Settles P True a (pure a : Task State α) :=
  fun _ hs => ⟨hs, answers_ok a⟩

theorem settles_throw (hC : ¬ C) (a : α) (e : Fault) : Settles P C a (throw e : Task State α) :=
  fun _ hs => ⟨hs, answers_error hC a e⟩

theorem Settles.congr {t : Task State α} (h : Settles P C a t) (hC : C ↔ C') :
    Settles P C' a t :=
  fun s hs => ⟨(h s hs).1, (h s hs).2.congr hC⟩

theorem Settles.bind {t : Task State α} {f : α → Task State β} (ht : Settles P C a t)
    (hf : Settles P C' b (f a)) : Settles P (C ∧ C') b (t >>= f) := by
  refine Ends.bind ht (fun a' s hs => ?_) fun e s hs => ?_
  · obtain ⟨hC, rfl⟩ := (hs.2 a').1 rfl
    exact hf.congr (and_iff_right hC).symm s hs.1
  · exact ⟨hs.1, answers_error (fun h => nomatch (hs.2 a).2 ⟨h.1, rfl⟩) b e⟩

theorem Settles.map {t : Task State α} (ht : Settles P C a t) (f : α → β) :
    Settles P C (f a) (t >>= fun a => pure (f a)) :=
  (ht.bind (settles_pure (f a))).congr (iff_of_eq (and_true C))

end Patchbay.Task
