import Sentum.Lib.Run
import Sentum.Research.ModelPromotion

/-!
# The promotion audit

`promote` writes an event and then the stage, in two statements; of its many
exits with an exception only the one after a failed gate has a rejected event
behind it.

`audited_iff`: stage and audit trail agree all along a run, and every call
that throws is on record as rejected, exactly when every call of `promote`
gets as far as its event, and the stage is written when the event approves.
-/

namespace Sentum.Promotion

open Sentum Run ModelStage

namespace ModelRegistry

def step (r : ModelRegistry) (c : Call) : ModelRegistry := (r.call c).1

/-- The last approved event of a model. -/
def lastApproved (r : ModelRegistry) (modelId : String) : Option PromotionEvent :=
  LastPerKey.last (fun e : PromotionEvent => (e.modelId, e.approved)) r.promotionEvents (modelId, true)

/-- The stage the audit trail has a model at. -/
def auditedStage (r : ModelRegistry) (modelId : String) : String :=
  match r.lastApproved modelId with
  | none => "research"
  | some e => e.toStage

/-- Stage and audit trail agree. -/
def InStep (r : ModelRegistry) : Prop :=
  ∀ modelId row, r.models modelId = some row → row.stage = r.auditedStage modelId

/-- A call of `promote` that throws leaves the stages alone and the attempt on record as rejected. -/
def Rejects (r : ModelRegistry) : Call → Prop
  | .promote d target confirmation sql =>
    ∀ what, (r.promote d target confirmation sql).2 = .error what →
      (r.promote d target confirmation sql).1.models = r.models ∧
        ∃ e, (r.promote d target confirmation sql).1.promotionEvents = r.promotionEvents ++ [e] ∧
          e.modelId = d.modelId ∧ e.toStage = target.stageName ∧ e.approved = false
  | _ => True

/-- The call gets as far as its event, the event is written, and so is the stage if the event approves. -/
def audited (r : ModelRegistry) : Call → Bool
  | .promote d target confirmation sql =>
    match r.examine d target confirmation sql with
    | .error _ => false
    | .ok (_, evidence) =>
      sql.event = .done && (!(passesPolicy evidence d.policy).1 || sql.update = .done)
  | _ => true

/-- **Invariant**: stages and audit trail agree, and only known models have been approved. -/
structure AuditInv (r : ModelRegistry) : Prop where
  inStep : r.InStep
  known : ∀ e ∈ r.promotionEvents, e.approved = true → ∃ row, r.models e.modelId = some row

theorem auditInv_empty : AuditInv {} where
  inStep := by
    intro modelId row h
    cases h
  known := by
    intro e he
    cases he

section
variable {r : ModelRegistry} {d : ModelDefinition} {target current : ModelStage} {confirmation modelId : String}
  {sql : PromoteStatements} {evidence : StageEvidence}

/-- An attempt counts for its own model, and only when it is approved. -/
theorem lastApproved_recorded : (recorded r d target confirmation sql current evidence).lastApproved modelId =
    if d.modelId = modelId ∧ (passesPolicy evidence d.policy).1 = true then
      some (attempt d current target confirmation evidence sql.recordedAtMs)
    else r.lastApproved modelId := by
  show LastPerKey.last _ (r.promotionEvents ++ [_]) _ = _
  rw [LastPerKey.last_snoc]
  simp only [Prod.mk.injEq, attempt, lastApproved]

theorem lastApproved_none (h : AuditInv r) (hrow : r.models modelId = none) : r.lastApproved modelId = none := by
  cases hlast : r.lastApproved modelId with
  | none => rfl
  | some e =>
    obtain ⟨hmem, hkey⟩ := LastPerKey.last_eq_some _ hlast
    obtain ⟨hid, happroved⟩ := Prod.mk.inj hkey
    obtain ⟨row, hknown⟩ := h.known e hmem happroved
    rw [hid, hrow] at hknown
    cases hknown

/-- The rows may change in all but the stage, and a new model starts at research. -/
theorem AuditInv.registerModel (h : AuditInv r) (d : ModelDefinition) (definitionJson : String) (now : Int)
    (o : Statement) : AuditInv (r.step (.registerModel d definitionJson now o)) := by
  cases o with
  | prepareFails what => exact h
  | stepFails what => exact h
  | done =>
    have hmodels : (r.step (.registerModel d definitionJson now .done)).models =
        Function.update r.models d.modelId (some (registeredRow (r.models d.modelId) d definitionJson now)) := rfl
    have hlast : ∀ modelId, (r.step (.registerModel d definitionJson now .done)).auditedStage modelId =
        r.auditedStage modelId := fun _ => rfl
    constructor
    · intro modelId row hrow
      rw [hlast]
      rw [hmodels] at hrow
      by_cases hid : modelId = d.modelId
      · subst hid
        rw [Function.update_self] at hrow
        cases hrow
        cases hold : r.models d.modelId with
        | none =>
          show "research" = _
          unfold auditedStage
          rw [lastApproved_none h hold]
        | some old => exact h.inStep d.modelId old hold
      · rw [Function.update_of_ne hid] at hrow
        exact h.inStep modelId row hrow
    · intro e he happroved
      obtain ⟨row, hrow⟩ := h.known e he happroved
      rw [hmodels]
      by_cases hid : e.modelId = d.modelId
      · exact ⟨_, by rw [hid, Function.update_self]⟩
      · exact ⟨row, by rw [Function.update_of_ne hid, hrow]⟩

/-- A rejection changes neither stages nor approvals. -/
theorem AuditInv.blocked (h : AuditInv r) (hfails : (passesPolicy evidence d.policy).1 = false) :
    AuditInv (recorded r d target confirmation sql current evidence) := by
  constructor
  · intro modelId row hrow
    unfold auditedStage
    rw [lastApproved_recorded, if_neg (by simp [hfails])]
    exact h.inStep modelId row hrow
  · intro e he happroved
    rcases List.mem_append.mp he with hold | hnew
    · exact h.known e hold happroved
    · rw [List.mem_singleton.mp hnew] at happroved
      exact absurd (happroved.symm.trans hfails) (by decide)

/-- An approval moves the model to the stage it names. -/
theorem AuditInv.promoted (h : AuditInv r) (hadmits : Admits r d target confirmation sql current evidence)
    (hpasses : (passesPolicy evidence d.policy).1 = true) :
    AuditInv ((recorded r d target confirmation sql current evidence).moved d.modelId target sql.updatedAtMs) := by
  obtain ⟨row, hrow, -⟩ := hadmits.known
  have hmodels : ((recorded r d target confirmation sql current evidence).moved d.modelId target
      sql.updatedAtMs).models = Function.update r.models d.modelId
        (some { row with stage := target.stageName, updatedAtMs := sql.updatedAtMs }) := by
    simp [moved, recorded, hrow]
  constructor
  · intro modelId row' hrow'
    have hlast : ((recorded r d target confirmation sql current evidence).moved d.modelId target
        sql.updatedAtMs).lastApproved modelId = if d.modelId = modelId ∧ (passesPolicy evidence d.policy).1 = true
          then some (attempt d current target confirmation evidence sql.recordedAtMs)
          else r.lastApproved modelId := lastApproved_recorded
    rw [hmodels] at hrow'
    unfold auditedStage
    rw [hlast]
    by_cases hid : modelId = d.modelId
    · subst hid
      rw [Function.update_self] at hrow'
      cases hrow'
      rw [if_pos ⟨rfl, hpasses⟩]
      rfl
    · rw [Function.update_of_ne hid] at hrow'
      rw [if_neg fun heq => hid heq.1.symm]
      exact h.inStep modelId row' hrow'
  · intro e he happroved
    rw [hmodels]
    by_cases hid : e.modelId = d.modelId
    · exact ⟨_, by rw [hid, Function.update_self]⟩
    · rcases List.mem_append.mp he with hold | hnew
      · obtain ⟨row', hrow'⟩ := h.known e hold happroved
        exact ⟨row', by rw [Function.update_of_ne hid, hrow']⟩
      · rw [List.mem_singleton.mp hnew] at hid
        exact absurd rfl hid

/-! ## One call -/

/-- A call of `promote` that throws is on record exactly if it is audited. -/
theorem rejects_promote_iff : r.Rejects (.promote d target confirmation sql) ↔
    r.audited (.promote d target confirmation sql) = true := by
  have houtcome := r.promote_outcome d target confirmation sql
  simp only [Rejects, audited]
  generalize r.promote d target confirmation sql = result at houtcome
  -- no event has been added
  have hnone : ∀ what, result = (r, .error what) →
      ¬ ∀ what, result.2 = .error what → result.1.models = r.models ∧
        ∃ e, result.1.promotionEvents = r.promotionEvents ++ [e] ∧ e.modelId = d.modelId ∧
          e.toStage = target.stageName ∧ e.approved = false := by
    rintro what rfl h
    obtain ⟨-, e, he, -⟩ := h what rfl
    have hlength := congrArg List.length he
    simp at hlength
  cases houtcome with
  | notAdmitted what h =>
    cases hexamine : r.examine d target confirmation sql with
    | error what' => exact iff_of_false (hnone what rfl) (by simp)
    | ok found => exact absurd (examine_eq_ok.mp hexamine) (h found.1 found.2)
  | notRecorded what h =>
    refine iff_of_false (hnone what rfl) ?_
    cases r.examine d target confirmation sql with
    | error what' => simp
    | ok found => simp [h]
  | blocked what current evidence hadmits hevent hfails =>
    rw [examine_eq_ok.mpr hadmits]
    refine iff_of_true ?_ (by simp [hevent, hfails])
    intro _ _
    exact ⟨rfl, attempt d current target confirmation evidence sql.recordedAtMs, rfl, rfl, rfl, hfails⟩
  | notUpdated what current evidence hadmits hevent hpasses hupdate =>
    rw [examine_eq_ok.mpr hadmits]
    refine iff_of_false ?_ (by simp [hpasses, hupdate])
    intro h
    obtain ⟨-, e, he, -, -, hrejected⟩ := h what rfl
    have heq : attempt d current target confirmation evidence sql.recordedAtMs = e := by
      have hlast := List.append_cancel_left he
      exact (List.cons.inj hlast).1
    rw [← heq] at hrejected
    exact absurd (hrejected.symm.trans hpasses) (by decide)
  | promoted current evidence hadmits hevent hpasses hupdate =>
    rw [examine_eq_ok.mpr hadmits]
    refine iff_of_true ?_ (by simp [hevent, hupdate])
    intro what h
    cases h

theorem rejects_iff (r : ModelRegistry) (c : Call) : r.Rejects c ↔ r.audited c = true := by
  cases c with
  | promote d target confirmation sql => exact rejects_promote_iff
  | _ => exact iff_of_true trivial rfl

/-- **Step lemma.** -/
theorem AuditInv.step (h : AuditInv r) {c : Call} (hg : r.audited c = true) : AuditInv (r.step c) := by
  cases c with
  | registerModel d definitionJson now o => exact h.registerModel d definitionJson now o
  | saveEvidence modelId e o => cases o <;> exact ⟨h.inStep, h.known⟩
  | promote d target confirmation sql =>
    have houtcome := r.promote_outcome d target confirmation sql
    simp only [audited] at hg
    show AuditInv (r.promote d target confirmation sql).1
    generalize r.promote d target confirmation sql = result at houtcome
    cases houtcome with
    | notAdmitted what hnot => exact h
    | notRecorded what hevent => exact h
    | blocked what current evidence hadmits hevent hfails => exact h.blocked hfails
    | notUpdated what current evidence hadmits hevent hpasses hupdate =>
      rw [examine_eq_ok.mpr hadmits] at hg
      simp [hpasses, hupdate] at hg
    | promoted current evidence hadmits hevent hpasses hupdate => exact h.promoted hadmits hpasses

end

/-- **Stage and audit trail never drift**, and every call that throws is on
record, in a run exactly when every call of `promote` finds the model at a
stage with a valid transition to the target, the confirmation and evidence,
its event is written, and so is the stage if the event approves. -/
theorem audited_iff (calls : List Call) :
    (Along step InStep {} calls ∧ Guarded step Rejects {} calls) ↔
      Guarded step (fun r c => r.audited c = true) {} calls := by
  have hguard : Guarded step Rejects {} calls ↔ Guarded step (fun r c => r.audited c = true) {} calls :=
    guarded_congr rejects_iff
  rw [hguard]
  constructor
  · exact fun h => h.2
  · intro h
    refine ⟨along_iff_initial.mpr fun pre hpre => ?_, h⟩
    have hstep : ∀ r c, AuditInv r → r.audited c = true → AuditInv (step r c) := fun r c hr hc => hr.step hc
    exact (exec_inv_guarded hstep auditInv_empty (guarded_initial h hpre)).inStep

/-- A promotion without the confirmation. -/
def unconfirmedRun : List Call :=
  [.registerModel btcMomentum "" 0 .done, .saveEvidence "btc-momentum-v1" passingEvidence .done,
    .promote btcMomentum .shadow "yes" {}]

theorem unconfirmedRun_not_recorded : ¬ (Along step InStep {} unconfirmedRun ∧ Guarded step Rejects {} unconfirmedRun) := by
  rintro ⟨-, h⟩
  obtain ⟨-, e, he, -⟩ := h.2.2.1 "Explicit operator confirmation required" (by decide +kernel)
  have hevents : (exec step {} unconfirmedRun).promotionEvents = [] := by decide +kernel
  cases hevents.symm.trans he

/-- A failing `UPDATE` leaves an approval behind, and the model where it was. -/
example : (exec step {} [.registerModel btcMomentum "" 0 .done,
      .saveEvidence "btc-momentum-v1" passingEvidence .done,
      .promote btcMomentum .shadow "I_APPROVE_MODEL_PROMOTION" { update := .stepFails "disk I/O error" }]).auditedStage
        "btc-momentum-v1" = "shadow" := by
  decide +kernel

end ModelRegistry

end Sentum.Promotion
