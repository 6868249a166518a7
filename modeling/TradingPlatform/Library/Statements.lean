import Mathlib.Data.List.Basic

namespace Statements
variable {σ Q ε : Type*}

/-- Statements one after the other, each committed as it is done. A statement
that is refused ends them, and so does the loss of the connection after as many
statements as `fault` says. -/
def execute (run : σ → Q → Except ε σ) (lost : ε) : Option ℕ → List Q → σ → Except ε Unit × σ
  | _, [], s => (.ok (), s)
  | fault, q :: rest, s =>
    if fault = some 0 then (.error lost, s)
    else
      match run s q with
      | .error e => (.error e, s)
      | .ok after => execute run lost (fault.map (· - 1)) rest after

/-- The connection outlasts so many statements. -/
def Outlasts (fault : Option ℕ) (count : ℕ) : Prop := ∀ k, fault = some k → count ≤ k

instance (fault : Option ℕ) (count : ℕ) : Decidable (Outlasts fault count) :=
  match fault with
  | none => .isTrue fun _ lost => nomatch lost
  | some k => decidable_of_iff (count ≤ k) ⟨fun outlasts _ same => Option.some.inj same ▸ outlasts,
      fun outlasts => outlasts k rfl⟩

variable {run : σ → Q → Except ε σ} {fault : Option ℕ}

theorem outlasts_zero : Outlasts fault 0 := fun _ _ => Nat.zero_le _

theorem outlasts_succ {count : ℕ} : Outlasts fault (count + 1) ↔
    fault ≠ some 0 ∧ Outlasts (fault.map (· - 1)) count := by
  cases fault with
  | none => simp [Outlasts]
  | some k => simp [Outlasts]; omega

/-- The first statements are done and the others go on from there. -/
theorem execute_append (lost : ε) {done rest : List Q} {s middle : σ} (outlasts : Outlasts fault done.length)
    (passes : done.foldlM run s = .ok middle) :
    execute run lost fault (done ++ rest) s =
      execute run lost (fault.map (· - done.length)) rest middle := by
  induction done generalizing fault s with
  | nil =>
    obtain rfl := Except.ok.inj passes
    simp
  | cons q done ih =>
    obtain ⟨alive, outlasts⟩ := outlasts_succ.mp outlasts
    rw [List.foldlM_cons] at passes
    cases first : run s q with
    | error e =>
      rw [first] at passes
      cases passes
    | ok after =>
      rw [first] at passes
      simp only [List.cons_append, execute, if_neg alive, first]
      rw [ih outlasts passes, Option.map_map]
      congr 2
      funext k
      simp only [Function.comp_apply, List.length_cons]
      omega

theorem execute_of_passes (lost : ε) {plan : List Q} {s final : σ} (outlasts : Outlasts fault plan.length)
    (passes : plan.foldlM run s = .ok final) :
    execute run lost fault plan s = (.ok (), final) := by
  have all : execute run lost fault (plan ++ []) s =
      execute run lost (fault.map (· - plan.length)) [] final :=
    execute_append lost outlasts passes
  simpa [execute] using all

theorem execute_of_stops (lost : ε) {done rest : List Q} {failing : Q} {s middle : σ}
    (outlasts : Outlasts fault done.length) (passes : done.foldlM run s = .ok middle)
    (stops : fault = some done.length ∨ ∃ e, run middle failing = .error e) :
    ∃ e, execute run lost fault (done ++ failing :: rest) s = (.error e, middle) := by
  rw [execute_append lost outlasts passes]
  by_cases now : fault.map (· - done.length) = some 0
  · exact ⟨lost, by rw [execute, if_pos now]⟩
  · rcases stops with here | ⟨e, refused⟩
    · simp [here] at now
    · exact ⟨e, by rw [execute, if_neg now, refused]⟩

/-- Where they end. -/
theorem execute_cases (run : σ → Q → Except ε σ) (lost : ε) (fault : Option ℕ) (plan : List Q)
    (s : σ) :
    (∃ final, execute run lost fault plan s = (.ok (), final) ∧ Outlasts fault plan.length ∧
      plan.foldlM run s = .ok final) ∨
    ∃ done failing rest middle e, plan = done ++ failing :: rest ∧
      execute run lost fault plan s = (.error e, middle) ∧ Outlasts fault done.length ∧
      done.foldlM run s = .ok middle ∧
      (fault = some done.length ∨ ∃ e, run middle failing = .error e) := by
  induction plan generalizing fault s with
  | nil => exact .inl ⟨s, rfl, outlasts_zero, rfl⟩
  | cons q plan ih =>
    by_cases here : fault = some 0
    · exact .inr ⟨[], q, plan, s, lost, rfl, by rw [execute, if_pos here], outlasts_zero, rfl,
        .inl here⟩
    cases first : run s q with
    | error e =>
      exact .inr ⟨[], q, plan, s, e, rfl, by rw [execute, if_neg here, first], outlasts_zero, rfl,
        .inr ⟨e, first⟩⟩
    | ok after =>
      have next : execute run lost fault (q :: plan) s =
          execute run lost (fault.map (· - 1)) plan after := by
        rw [execute, if_neg here, first]
      rcases ih (fault.map (· - 1)) after with ⟨final, ends, outlasts, passes⟩ |
        ⟨done, failing, rest, middle, e, rfl, ends, outlasts, passes, stops⟩
      · refine .inl ⟨final, next.trans ends, outlasts_succ.mpr ⟨here, outlasts⟩, ?_⟩
        rw [List.foldlM_cons, first]
        exact passes
      · refine .inr ⟨q :: done, failing, rest, middle, e, rfl, next.trans ends,
          outlasts_succ.mpr ⟨here, outlasts⟩, ?_, ?_⟩
        · rw [List.foldlM_cons, first]
          exact passes
        · rcases stops with lostHere | refused
          · obtain ⟨k, rfl, shorter⟩ := Option.map_eq_some_iff.mp lostHere
            have positive : k ≠ 0 := fun zero => here (congrArg some zero)
            refine .inl (congrArg some ?_)
            rw [List.length_cons]
            omega
          · exact .inr refused

end Statements
