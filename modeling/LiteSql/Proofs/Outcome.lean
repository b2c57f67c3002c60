import LiteSql.Proofs.Outline

/-!
# Outcomes of steps

A step ensures a condition if every run that succeeds ends with it. The condition is
on the number of the last placeholder before the run, on the result, and on the
values that the run appends. What a later step of a statement ensures is thus
stated for the number at which the earlier ones end.
-/

namespace LiteSql

theorem Params.add_left_injective (p : Params) {vs ws : List Value} (h : p.add vs = p.add ws) :
    vs = ws := by
  have hvalues : p.values ++ vs = p.values ++ ws := congrArg Params.values h
  exact List.append_cancel_left hvalues

namespace Emit

/-- Every successful run only appends values, and its result meets the condition. -/
def Ensures {α : Type} (step : Emit α) (post : Nat → α → List Value → Prop) : Prop :=
  ∀ p a p', step.run p = .ok a p' → ∃ vs, p' = p.add vs ∧ post p.last a vs

/-- The texts of a list, one per item and each with its own values, where every text
is numbered on from the one before it. -/
inductive Each {α : Type} (post : α → Nat → Text → List Value → Prop) :
    List α → Nat → List Text → List Value → Prop
  | nil (i : Nat) : Each post [] i [] []
  | cons {a : α} {as : List α} {i : Nat} {s : Text} {ss : List Text} {vs ws : List Value}
      (first : post a i s vs) (rest : Each post as (i + vs.length) ss ws) :
      Each post (a :: as) i (s :: ss) (vs ++ ws)

theorem Each.map {α : Type} {post post' : α → Nat → Text → List Value → Prop} {f : Text → Text}
    (hf : ∀ a i s vs, post a i s vs → post' a i (f s) vs) {as : List α} {i : Nat}
    {ss : List Text} {vs : List Value} (h : Each post as i ss vs) :
    Each post' as i (ss.map f) vs := by
  induction h with
  | nil i => exact .nil i
  | cons first rest ih => exact .cons (hf _ _ _ _ first) ih

namespace Ensures

variable {α β γ : Type}

theorem pure {post : Nat → α → List Value → Prop} {a : α} (h : ∀ i, post i a []) :
    Ensures (pure a) post := by
  intro p b p' hrun
  cases hrun
  exact ⟨[], by simp, h p.last⟩

theorem throw {post : Nat → α → List Value → Prop} (e : Error) :
    Ensures (throw e : Emit α) post := by
  intro p a p' hrun
  cases hrun

theorem bindValue {post : Nat → Text → List Value → Prop} {v : Value}
    (h : ∀ i, post i (placeholder (i + 1)) [v]) : Ensures (bindValue v) post := by
  intro p a p' hrun
  cases hrun
  exact ⟨[v], rfl, h p.last⟩

theorem bind {step : Emit α} {next : α → Emit β} {mid : Nat → α → List Value → Prop}
    {post : Nat → β → List Value → Prop} (h : step.Ensures mid)
    (hnext : ∀ i a vs, mid i a vs →
      (next a).Ensures fun j b ws => j = i + vs.length → post i b (vs ++ ws)) :
    Ensures (step >>= next) post := by
  intro p b p'' hrun
  rw [EStateM.run_bind] at hrun
  cases hstep : step.run p with
  | error e p' =>
      rw [hstep] at hrun
      cases hrun
  | ok a p' =>
      rw [hstep] at hrun
      obtain ⟨vs, rfl, hmid⟩ := h p a p' hstep
      obtain ⟨ws, rfl, hpost⟩ := hnext p.last a vs hmid _ b p'' hrun
      exact ⟨vs ++ ws, by simp, hpost (by simp)⟩

theorem imp {step : Emit α} {mid post : Nat → α → List Value → Prop} (h : step.Ensures mid)
    (himp : ∀ i a vs, mid i a vs → post i a vs) : step.Ensures post := by
  intro p a p' hrun
  obtain ⟨vs, hadd, hmid⟩ := h p a p' hrun
  exact ⟨vs, hadd, himp _ _ _ hmid⟩

theorem map {step : Emit α} {f : α → β} {mid : Nat → α → List Value → Prop}
    {post : Nat → β → List Value → Prop} (h : step.Ensures mid)
    (hf : ∀ i a vs, mid i a vs → post i (f a) vs) :
    Ensures (do let a ← step; return f a) post := by
  refine h.bind fun i a vs hmid => .pure fun j _ => ?_
  rw [List.append_nil]
  exact hf i a vs hmid

theorem map₂ {first : Emit α} {second : Emit β} {f : α → β → γ}
    {mid : Nat → α → List Value → Prop} {mid' : Nat → β → List Value → Prop}
    {post : Nat → γ → List Value → Prop} (h₁ : first.Ensures mid) (h₂ : second.Ensures mid')
    (hf : ∀ i a vs b ws, mid i a vs → mid' (i + vs.length) b ws → post i (f a b) (vs ++ ws)) :
    Ensures (do let a ← first; let b ← second; return f a b) post := by
  refine h₁.bind fun i a vs hmid => h₂.map fun j b ws hmid' hj => ?_
  subst hj
  exact hf i a vs b ws hmid hmid'

theorem ofExcept {x : Except Error α} {post : Nat → α → List Value → Prop}
    (h : ∀ a, x = .ok a → ∀ i, post i a []) : Ensures (ofExcept x) post := by
  cases x with
  | error e => exact .throw e
  | ok a => exact .pure (h a rfl)

/-- A check before a step binds nothing. -/
theorem ofExcept_bind {x : Except Error α} {next : α → Emit β}
    {post : Nat → β → List Value → Prop} (h : ∀ a, x = .ok a → (next a).Ensures post) :
    Ensures (Emit.ofExcept x >>= next) post := by
  cases x with
  | error e =>
      intro p b p' hrun
      cases hrun
  | ok a => exact h a rfl

theorem refuseIf_bind {condition : Bool} {e : Error} {next : Unit → Emit β}
    {post : Nat → β → List Value → Prop} (h : condition = false → (next ()).Ensures post) :
    Ensures (refuseIf condition e >>= next) post := by
  cases condition with
  | false => exact h rfl
  | true =>
      intro p b p' hrun
      cases hrun

section Lists

variable {post : α → Nat → Text → List Value → Prop}

theorem each_nil : Ensures (Pure.pure []) (Each post []) :=
  .pure fun i => .nil i

theorem each_cons {a : α} {as : List α} {first : Emit Text} {rest : Emit (List Text)}
    (h₁ : first.Ensures (post a)) (h₂ : rest.Ensures (Each post as)) :
    Ensures (do let s ← first; let ss ← rest; return s :: ss) (Each post (a :: as)) :=
  h₁.map₂ h₂ fun _ _ _ _ _ hfirst hrest => .cons hfirst hrest

theorem forEach {step : α → Emit Text} {as : List α}
    (h : ∀ a ∈ as, (step a).Ensures (post a)) : Ensures (forEach step as) (Each post as) := by
  induction as with
  | nil => exact .each_nil
  | cons a as ih =>
      rw [List.forall_mem_cons] at h
      exact .each_cons h.1 (ih h.2)

theorem bindValues {post : Value → Nat → Text → List Value → Prop}
    (h : ∀ v i, post v i (placeholder (i + 1)) [v]) (vs : List Value) :
    Ensures (bindValues vs) (Each post vs) := by
  induction vs with
  | nil => exact .each_nil
  | cons v vs ih => exact .each_cons (.bindValue (h v)) ih

end Lists

theorem concat {post : Nat → Text → List Value → Prop} (hnil : ∀ i, post i [] [])
    (happend : ∀ i s vs t ws, post i s vs → post (i + vs.length) t ws →
      post i (s ++ t) (vs ++ ws))
    {parts : List (Emit Text)} (h : ∀ part ∈ parts, part.Ensures post) :
    Ensures (concat parts) post := by
  induction parts with
  | nil => exact .pure hnil
  | cons part parts ih =>
      rw [List.forall_mem_cons] at h
      exact h.1.map₂ (ih h.2) happend

theorem of_add {step : Emit α} {post : Nat → α → List Value → Prop} (h : step.Ensures post)
    {p : Params} {a : α} {vs : List Value} (hrun : step.run p = .ok a (p.add vs)) :
    post p.last a vs := by
  obtain ⟨ws, hadd, hpost⟩ := h p a _ hrun
  rwa [p.add_left_injective hadd]

theorem of_compile {step : Emit Text} {post : Nat → Text → List Value → Prop} {c : Compiled}
    (h : step.Ensures post) (hc : step.compile = .ok c) : post 0 c.sql.toList c.params := by
  unfold compile at hc
  split at hc
  · rename_i sql params hrun
    cases hc
    obtain ⟨vs, rfl, hpost⟩ := h _ _ _ hrun
    simpa [Params.add] using hpost
  · cases hc

end Ensures

end Emit

end LiteSql
