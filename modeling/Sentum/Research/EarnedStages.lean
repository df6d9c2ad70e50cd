import Sentum.Lib.Run
import Sentum.Research.ModelPromotion

/-!
# Earned stages

A stage is earned when every stage below it was left by a promotion under the
definition that is registered now, on evidence saved under that definition.
The registry does not say which definition a row of evidence or a promotion
belongs to; `Lifecycle` keeps it beside the registry.

`earned_iff`: the stages are earned all along a run of calls exactly when no
call replaces the definition of a model above research, and no promotion goes
through on evidence of another definition only.
-/

namespace Sentum.Promotion

open Sentum Run ModelStage

/-- A registry, and what its tables do not record. -/
structure Lifecycle where
  registry : ModelRegistry := {}
  /-- evidence that was saved, with the definition registered at the time -/
  saved : List (String × StageEvidence × Option String) := []
  /-- the promotion with which a model left a stage: its policy and the definition registered at the time -/
  promotions : String → ModelStage → Option (PromotionPolicy × String) := fun _ _ => none

namespace Lifecycle

/-- The definition registered for a model. -/
def definition? (s : Lifecycle) (modelId : String) : Option String :=
  (s.registry.models modelId).map ModelRow.definitionJson

/-- `promotions` with one more. -/
def left (s : Lifecycle) (d : ModelDefinition) (current : ModelStage) :
    String → ModelStage → Option (PromotionPolicy × String) :=
  Function.update s.promotions d.modelId
    (Function.update (s.promotions d.modelId) current
      ((s.definition? d.modelId).map fun definitionJson => (d.policy, definitionJson)))

def step (s : Lifecycle) : Call → Lifecycle
  | .registerModel d definitionJson now o => { s with registry := (s.registry.registerModel d definitionJson now o).1 }
  | .saveEvidence modelId e o =>
    { s with
      registry := (s.registry.saveEvidence modelId e o).1
      saved := if o = .done then s.saved ++ [(modelId, e, s.definition? modelId)] else s.saved }
  | .promote d target confirmation sql =>
    let result := s.registry.promote d target confirmation sql
    { s with
      registry := result.1
      promotions := match s.registry.examine d target confirmation sql, result.2 with
        | .ok (current, _), .ok _ => s.left d current
        | _, _ => s.promotions }

/-- The model left stage `m` under this definition, on evidence saved under it
that passes the policy of that promotion. -/
def EarnedUnder (s : Lifecycle) (modelId definitionJson : String) (m : ModelStage) : Prop :=
  ∃ policy, s.promotions modelId m = some (policy, definitionJson) ∧
    ∃ e, (modelId, e, some definitionJson) ∈ s.saved ∧ e.stage = m.stageName ∧ (passesPolicy e policy).1 = true

/-- Every model has earned its stage under the definition registered now. -/
def Earned (s : Lifecycle) : Prop :=
  ∀ modelId row, s.registry.models modelId = some row → ∀ current : ModelStage, row.stage = current.stageName →
    ∀ m ∈ current.lower, s.EarnedUnder modelId row.definitionJson m

/-- A new definition comes to a model at research only, and a promotion goes
through only where evidence saved under the registered definition passes its policy. -/
def earns (s : Lifecycle) : Call → Bool
  | .registerModel d definitionJson _ o =>
    match s.registry.models d.modelId with
    | none => true
    | some row => o ≠ .done || row.stage = "research" || row.definitionJson = definitionJson
  | .saveEvidence _ _ _ => true
  | .promote d target confirmation sql =>
    match s.registry.examine d target confirmation sql with
    | .error _ => true
    | .ok (current, evidence) =>
      !(passesPolicy evidence d.policy).1 || sql.event ≠ .done || sql.update ≠ .done ||
        s.saved.any fun x =>
          x.1 = d.modelId && x.2.2 = s.definition? d.modelId && x.2.1.stage = current.stageName &&
            (passesPolicy x.2.1 d.policy).1

/-- **Invariant**: every row is at a stage, which its model has earned. -/
structure Inv (s : Lifecycle) : Prop where
  staged : ∀ modelId row, s.registry.models modelId = some row → ∃ m : ModelStage, row.stage = m.stageName
  earned : s.Earned

theorem inv_empty : Inv {} where
  staged := by
    intro modelId row h
    cases h
  earned := by
    intro modelId row h
    cases h

/-! ## What a call changes -/

section
variable {s s' : Lifecycle} {modelId definitionJson : String} {m : ModelStage}

/-- More evidence, and promotions of other models or stages, take nothing away. -/
theorem EarnedUnder.mono (h : s.EarnedUnder modelId definitionJson m)
    (hpromotions : s'.promotions modelId m = s.promotions modelId m) (hsaved : ∀ x ∈ s.saved, x ∈ s'.saved) :
    s'.EarnedUnder modelId definitionJson m := by
  obtain ⟨policy, hpolicy, e, he, hstage, hpasses⟩ := h
  exact ⟨policy, hpromotions.trans hpolicy, e, hsaved _ he, hstage, hpasses⟩

/-- Rows, promotions and evidence as before, or more evidence. -/
theorem Inv.same (h : Inv s) (hmodels : s'.registry.models = s.registry.models)
    (hpromotions : s'.promotions = s.promotions) (hsaved : ∀ x ∈ s.saved, x ∈ s'.saved) : Inv s' := by
  constructor
  · intro modelId row hrow
    exact h.staged modelId row (hmodels ▸ hrow)
  · intro modelId row hrow current hstage m hm
    have hearned := h.earned modelId row (hmodels ▸ hrow) current hstage m hm
    exact hearned.mono (by rw [hpromotions]) hsaved

theorem registerModel_refused {r : ModelRegistry} {d : ModelDefinition} {definitionJson : String} {now : Int}
    {o : Statement} (h : o ≠ .done) : (r.registerModel d definitionJson now o).1 = r := by
  obtain ⟨what, hwhat⟩ := ModelRegistry.execute_refused (r := r) h fun r =>
    { r with
      models := Function.update r.models d.modelId
        (some (ModelRegistry.registeredRow (r.models d.modelId) d definitionJson now)) }
  exact congrArg Prod.fst hwhat

/-- `promote` leaves the models alone, or moves one that passes its gates. -/
theorem step_promote (s : Lifecycle) (d : ModelDefinition) (target : ModelStage) (confirmation : String)
    (sql : PromoteStatements) :
    ((∃ registry : ModelRegistry, registry.models = s.registry.models ∧
        s.step (.promote d target confirmation sql) = { s with registry }) ∧
      s.earns (.promote d target confirmation sql) = true) ∨
    ∃ current evidence row, s.registry.examine d target confirmation sql = .ok (current, evidence) ∧
      (passesPolicy evidence d.policy).1 = true ∧ sql.event = .done ∧ sql.update = .done ∧
      validTransition current target = true ∧
      s.registry.models d.modelId = some row ∧ row.stage = current.stageName ∧
      (s.step (.promote d target confirmation sql)).registry.models =
        Function.update s.registry.models d.modelId
          (some { row with stage := target.stageName, updatedAtMs := sql.updatedAtMs }) ∧
      (s.step (.promote d target confirmation sql)).saved = s.saved ∧
      (s.step (.promote d target confirmation sql)).promotions = s.left d current := by
  have houtcome := s.registry.promote_outcome d target confirmation sql
  simp only [step, earns]
  generalize s.registry.promote d target confirmation sql = result at houtcome
  cases houtcome with
  | notAdmitted what h =>
    cases hexamine : s.registry.examine d target confirmation sql with
    | error what' => exact .inl ⟨⟨s.registry, rfl, rfl⟩, rfl⟩
    | ok found => exact absurd (ModelRegistry.examine_eq_ok.mp hexamine) (h found.1 found.2)
  | notRecorded what h =>
    cases hexamine : s.registry.examine d target confirmation sql with
    | error what' => exact .inl ⟨⟨s.registry, rfl, rfl⟩, rfl⟩
    | ok found => exact .inl ⟨⟨s.registry, rfl, rfl⟩, by simp [h]⟩
  | blocked what current evidence hadmits hevent hfails =>
    rw [ModelRegistry.examine_eq_ok.mpr hadmits]
    exact .inl ⟨⟨s.registry.recorded d target confirmation sql current evidence, rfl, rfl⟩, by simp [hfails]⟩
  | notUpdated what current evidence hadmits hevent hpasses hupdate =>
    rw [ModelRegistry.examine_eq_ok.mpr hadmits]
    exact .inl ⟨⟨s.registry.recorded d target confirmation sql current evidence, rfl, rfl⟩, by simp [hupdate]⟩
  | promoted current evidence hadmits hevent hpasses hupdate =>
    obtain ⟨row, hrow, hstage⟩ := hadmits.known
    rw [ModelRegistry.examine_eq_ok.mpr hadmits]
    refine .inr ⟨current, evidence, row, rfl, hpasses, hevent, hupdate, hadmits.transition, hrow, hstage, ?_,
      trivial, rfl⟩
    simp [ModelRegistry.moved, ModelRegistry.recorded, hrow]

/-! ## One call -/

/-- A new definition keeps only the stage research. -/
theorem Inv.registerModel (h : Inv s) {d : ModelDefinition} {now : Int} {o : Statement}
    (hg : s.earns (.registerModel d definitionJson now o) = true) :
    Inv (s.step (.registerModel d definitionJson now o)) := by
  by_cases ho : o = .done
  · subst ho
    have hmodels : (s.step (.registerModel d definitionJson now .done)).registry.models =
        Function.update s.registry.models d.modelId
          (some (ModelRegistry.registeredRow (s.registry.models d.modelId) d definitionJson now)) := rfl
    have hself : ∀ id row, (s.step (.registerModel d definitionJson now .done)).registry.models id = some row →
        (id ≠ d.modelId ∧ s.registry.models id = some row) ∨
        (id = d.modelId ∧ row = ModelRegistry.registeredRow (s.registry.models d.modelId) d definitionJson now) := by
      intro id row hrow
      rw [hmodels] at hrow
      by_cases hid : id = d.modelId
      · rw [hid, Function.update_self] at hrow
        exact .inr ⟨hid, (Option.some.inj hrow).symm⟩
      · rw [Function.update_of_ne hid] at hrow
        exact .inl ⟨hid, hrow⟩
    constructor
    · intro id row hrow
      rcases hself id row hrow with ⟨-, hold⟩ | ⟨-, rfl⟩
      · exact h.staged id row hold
      · cases hold : s.registry.models d.modelId with
        | none => exact ⟨.research, rfl⟩
        | some old => exact h.staged d.modelId old hold
    · intro id row hrow current hstage m hm
      rcases hself id row hrow with ⟨-, hold⟩ | ⟨rfl, rfl⟩
      · exact (h.earned id row hold current hstage m hm).mono rfl fun x hx => hx
      · simp only [earns] at hg
        cases hold : s.registry.models d.modelId with
        | none =>
          rw [hold] at hstage
          cases stageName_injective (m := .research) hstage
          cases hm
        | some old =>
          rw [hold] at hstage hg
          simp only [ne_eq, not_true_eq_false, decide_false, Bool.false_or, Bool.or_eq_true, decide_eq_true_eq] at hg
          rcases hg with hresearch | hsame
          · cases stageName_injective (m := .research) (hresearch.symm.trans hstage)
            cases hm
          · exact (hsame ▸ h.earned d.modelId old hold current hstage m hm).mono rfl fun x hx => hx
  · have hsame : s.step (.registerModel d definitionJson now o) = s := by
      simp only [step, registerModel_refused ho]
    rw [hsame]
    exact h

/-- Evidence of the kind a promotion of `d` out of stage `m` needs has been saved. -/
theorem any_saved {d : ModelDefinition} : (s.saved.any fun x =>
      x.1 = d.modelId && x.2.2 = s.definition? d.modelId && x.2.1.stage = m.stageName &&
        (passesPolicy x.2.1 d.policy).1) = true ↔
    ∃ e, (d.modelId, e, s.definition? d.modelId) ∈ s.saved ∧ e.stage = m.stageName ∧
      (passesPolicy e d.policy).1 = true := by
  rw [List.any_eq_true]
  constructor
  · rintro ⟨⟨id, e, definition⟩, hmem, hx⟩
    simp only [Bool.and_eq_true, decide_eq_true_eq] at hx
    obtain ⟨⟨⟨rfl, rfl⟩, hstage⟩, hpasses⟩ := hx
    exact ⟨e, hmem, hstage, hpasses⟩
  · rintro ⟨e, hmem, hstage, hpasses⟩
    exact ⟨_, hmem, by simp [hstage, hpasses]⟩

theorem left_self {d : ModelDefinition} {row : ModelRow} (hrow : s.registry.models d.modelId = some row) :
    s.left d m d.modelId m = some (d.policy, row.definitionJson) := by
  simp [left, definition?, hrow]

theorem left_of_ne {d : ModelDefinition} {current : ModelStage} (h : modelId ≠ d.modelId ∨ m ≠ current) :
    s.left d current modelId m = s.promotions modelId m := by
  unfold left
  by_cases hid : modelId = d.modelId
  · subst hid
    rw [Function.update_self, Function.update_of_ne (h.resolve_left fun hne => hne rfl)]
  · rw [Function.update_of_ne hid]

/-- A promotion earns the stage it leaves, and keeps what was earned below. -/
theorem Inv.promote (h : Inv s) {d : ModelDefinition} {target : ModelStage} {confirmation : String}
    {sql : PromoteStatements} (hg : s.earns (.promote d target confirmation sql) = true) :
    Inv (s.step (.promote d target confirmation sql)) := by
  rcases s.step_promote d target confirmation sql with ⟨⟨registry, hmodels, hstep⟩, -⟩ | hpromoted
  · rw [hstep]
    exact h.same hmodels rfl fun x hx => hx
  · obtain ⟨current, evidence, row, hexamine, hpasses, hevent, hupdate, hvalid, hrow, hstage, hmodels, hsaved,
      hpromotions⟩ := hpromoted
    simp only [earns, hexamine, hpasses, hevent, hupdate, Bool.not_true, ne_eq, not_true_eq_false, decide_false,
      Bool.or_self, Bool.false_or] at hg
    obtain ⟨e, hmem, hestage, hepasses⟩ := any_saved.mp hg
    have hdefinition : s.definition? d.modelId = some row.definitionJson := by simp [definition?, hrow]
    rw [hdefinition] at hmem
    generalize s.step (.promote d target confirmation sql) = s' at hmodels hsaved hpromotions
    have hother : ∀ {id row' : _}, id ≠ d.modelId → s'.registry.models id = some row' →
        s.registry.models id = some row' := by
      intro id row' hid hrow'
      rwa [hmodels, Function.update_of_ne hid] at hrow'
    constructor
    · intro id row' hrow'
      by_cases hid : id = d.modelId
      · rw [hmodels, hid, Function.update_self] at hrow'
        exact ⟨target, (Option.some.inj hrow') ▸ rfl⟩
      · exact h.staged id row' (hother hid hrow')
    · intro id row' hrow' current' hstage' m hm
      by_cases hid : id = d.modelId
      · subst hid
        rw [hmodels, Function.update_self] at hrow'
        cases hrow'
        cases stageName_injective hstage'
        rw [lower_of_validTransition hvalid, List.mem_append, List.mem_singleton] at hm
        rcases hm with hbelow | rfl
        · have hne : m ≠ current := fun heq => not_mem_lower current (heq ▸ hbelow)
          refine (h.earned _ row hrow current hstage m hbelow).mono ?_ fun x hx => hsaved ▸ hx
          rw [hpromotions, left_of_ne (.inr hne)]
        · exact ⟨d.policy, by rw [hpromotions, left_self hrow], e, hsaved ▸ hmem, hestage, hepasses⟩
      · refine (h.earned id row' (hother hid hrow') current' hstage' m hm).mono ?_ fun x hx => hsaved ▸ hx
        rw [hpromotions, left_of_ne (.inl hid)]

/-- **Step lemma.** -/
theorem Inv.step (h : Inv s) {call : Call} (hg : s.earns call = true) : Inv (s.step call) := by
  cases call with
  | registerModel d definitionJson now o => exact h.registerModel hg
  | saveEvidence modelId e o =>
    refine h.same ?_ rfl ?_
    · cases o <;> rfl
    · intro x hx
      simp only [Lifecycle.step]
      split
      · exact List.mem_append_left _ hx
      · exact hx
  | promote d target confirmation sql => exact h.promote hg

/-! ## What goes wrong -/

/-- A new definition above research keeps a stage of the old one. -/
theorem registerModel_breaks (h : Inv s) {d : ModelDefinition} {now : Int} {o : Statement}
    (hg : s.earns (.registerModel d definitionJson now o) = false) :
    ¬ (s.step (.registerModel d definitionJson now o)).Earned := by
  intro hearned
  simp only [earns] at hg
  cases hrow : s.registry.models d.modelId with
  | none =>
    rw [hrow] at hg
    cases hg
  | some row =>
    simp only [hrow, Bool.or_eq_false_iff, decide_eq_false_iff_not, ne_eq, not_not] at hg
    obtain ⟨⟨rfl, hresearch⟩, hdefinition⟩ := hg
    obtain ⟨current, hstage⟩ := h.staged d.modelId row hrow
    have hmem : ModelStage.research ∈ current.lower := by
      cases current with
      | research => exact absurd hstage hresearch
      | _ => decide
    obtain ⟨policy, hpolicy, -⟩ := h.earned d.modelId row hrow current hstage .research hmem
    have hrow' : (s.step (.registerModel d definitionJson now .done)).registry.models d.modelId =
        some (ModelRegistry.registeredRow (some row) d definitionJson now) := by
      rw [← hrow]
      exact Function.update_self _ _ _
    obtain ⟨policy', hpolicy', -⟩ := hearned d.modelId _ hrow' current hstage .research hmem
    have hsame : some (policy, row.definitionJson) = some (policy', definitionJson) := hpolicy.symm.trans hpolicy'
    exact hdefinition (Prod.mk.inj (Option.some.inj hsame)).2

/-- A promotion on evidence of another definition only earns nothing. -/
theorem promote_breaks {d : ModelDefinition} {target : ModelStage} {confirmation : String} {sql : PromoteStatements}
    (hg : s.earns (.promote d target confirmation sql) = false) :
    ¬ (s.step (.promote d target confirmation sql)).Earned := by
  intro hearned
  rcases s.step_promote d target confirmation sql with ⟨-, hearns⟩ | hpromoted
  · rw [hearns] at hg
    cases hg
  · obtain ⟨current, evidence, row, hexamine, hpasses, hevent, hupdate, hvalid, hrow, hstage, hmodels, hsaved,
      hpromotions⟩ := hpromoted
    have hrow' := (congrFun hmodels d.modelId).trans (Function.update_self _ _ _)
    have hmem : current ∈ target.lower := by
      rw [lower_of_validTransition hvalid]
      exact List.mem_append_right _ (List.mem_singleton_self current)
    obtain ⟨policy, hpolicy, e, he, hestage, hepasses⟩ := hearned d.modelId _ hrow' target rfl current hmem
    rw [hpromotions, left_self hrow] at hpolicy
    cases hpolicy
    have hdefinition : s.definition? d.modelId = some row.definitionJson := by simp [definition?, hrow]
    rw [hsaved, ← hdefinition] at he
    simp only [earns, hexamine, Bool.or_eq_false_iff] at hg
    rw [any_saved.mpr ⟨e, he, hestage, hepasses⟩] at hg
    cases hg.2

end

/-- **Stages are earned by the registered logic** in a run of calls exactly
when no call replaces the definition of a model above research and every
promotion that goes through has evidence, saved under the definition
registered then, that passes its policy. -/
theorem earned_iff (calls : List Call) :
    Along step Earned {} calls ↔ Guarded step (fun s call => s.earns call = true) {} calls := by
  have hkeep : ∀ s call, Inv s → s.earns call = true → Inv (step s call) := fun s call h hg => h.step hg
  refine along_iff_guarded (fun s h => h.earned) hkeep ?_ inv_empty
  intro s call h hg
  rw [Bool.not_eq_true] at hg
  cases call with
  | registerModel d definitionJson now o => exact registerModel_breaks h hg
  | saveEvidence modelId e o => cases hg
  | promote d target confirmation sql => exact promote_breaks hg

/-- A model is promoted to shadow and then registered anew with other logic. -/
def replacedRun : List Call :=
  [.registerModel btcMomentum "momentum, lookback 20" 0 .done,
    .saveEvidence "btc-momentum-v1" passingEvidence .done,
    .promote btcMomentum .shadow "I_APPROVE_MODEL_PROMOTION" {},
    .registerModel { btcMomentum with strategy := .object [("type", .string "breakout")] } "breakout" 1 .done]

theorem replacedRun_not_earned : ¬ Along step Earned {} replacedRun := by
  intro h
  have hleft : (exec step {} replacedRun).promotions "btc-momentum-v1" .research =
      some (btcMomentum.policy, "momentum, lookback 20") := by decide +kernel
  have hrow : ((exec step {} replacedRun).registry.models "btc-momentum-v1").map
      (fun row => (row.stage, row.definitionJson)) = some ("shadow", "breakout") := by decide +kernel
  obtain ⟨row, hrow, hfields⟩ := Option.map_eq_some_iff.mp hrow
  obtain ⟨hstage, hdefinition⟩ := Prod.mk.inj hfields
  obtain ⟨policy, hpolicy, -⟩ := h.2.2.2.2 "btc-momentum-v1" row hrow .shadow hstage .research (by decide)
  have hsame := Option.some.inj (hleft.symm.trans hpolicy)
  rw [hdefinition] at hsame
  exact absurd (Prod.mk.inj hsame).2 (by decide)

end Lifecycle

end Sentum.Promotion
