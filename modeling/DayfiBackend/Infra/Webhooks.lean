import DayfiBackend.Infra.Statements

/-!
# The webhooks, from what they call

A webhook finds a transaction, and then settles it, finalizes or releases it, or patches its
status. Whatever discipline these keep, the webhooks and the simulated settlement keep
(`LifecycleRules`).
-/

namespace DayfiBackend.Infra

open DayfiBackend.Found DayfiBackend.Found.Prog

/-- The calls of the lifecycle keep a discipline from any state. -/
structure LifecycleRules (D : Discipline Sql Outside Store) (pid : ℕ) : Prop where
  load : ∀ id orgId, Safe services D pid (sql (.loadTx id orgId))
  loadByExternalId : ∀ externalId, Safe services D pid (sql (.loadTxByExternalId externalId))
  /-- A patch of the status. -/
  patch : ∀ i status, Safe services D pid (sql (.patchTx i status id))
  update : ∀ which f, Safe services D pid (sql (.updateSettlements which f))
  settle : ∀ orgId id, Safe services D pid (settleCollectionCredit orgId id)
  finalize : ∀ orgId id, Safe services D pid (finalizePayoutDebit orgId id)
  release : ∀ orgId id, Safe services D pid (releasePayoutLock orgId id)

namespace LifecycleRules

variable {D : Discipline Sql Outside Store} {pid : ℕ} (h : LifecycleRules D pid)
include h

theorem applyPayoutWebhook (row : TxRow) (mapped : Option ProviderStatus) :
    Safe services D pid (applyPayoutWebhook row mapped) := by
  have hskip : ∀ (e e' : Err), Safe services D pid
      (if e = e' then pure true else throw e : Call Bool) := fun _ _ => .ite (.pure _) (.throw _)
  unfold Infra.applyPayoutWebhook
  split
  · refine .ite (.pure _) (.ite (.pure _) (.bind ?_ fun released => ?_))
    · exact .tryCatch (.bind (h.finalize _ _) fun _ => .pure _) fun e => hskip e _
    · refine .ite (.pure _) (.ite ?_ (.pure _))
      exact .bind (h.update _ _) fun _ => .bind (h.patch _ _) fun _ => .pure _
  · refine .ite (.pure _) (.ite ?_ (.bind ?_ fun _ => .pure _))
    · exact .bind (h.patch _ _) fun _ => .bind (h.update _ _) fun _ => .pure _
    · exact .tryCatch (.bind (h.release _ _) fun _ => .pure _) fun e => hskip e _
  · exact .pure _

theorem applyCollectionWebhook (row : TxRow) (mapped : Option ProviderStatus) :
    Safe services D pid (applyCollectionWebhook row mapped) := by
  unfold Infra.applyCollectionWebhook
  split
  · exact .bind (h.settle _ _) fun _ => .pure _
  · exact .ite (.pure _) (.bind (h.patch _ _) fun _ => .pure _)
  · exact .pure _

theorem applyInfraYellowCardWebhook (payload : YellowCardWebhookPayload) :
    Safe services D pid (applyInfraYellowCardWebhook payload) := by
  unfold Infra.applyInfraYellowCardWebhook
  dsimp only
  refine .ite (.pure _) (.bind (h.loadByExternalId _) fun found => ?_)
  cases found with
  | none => exact .pure _
  | some row =>
      dsimp only
      split
      · exact h.applyCollectionWebhook row _
      · exact .ite (.pure _) (h.applyPayoutWebhook row _)

theorem applyInfraFlutterwaveWebhook (payload : FlutterwavePayload) :
    Safe services D pid (applyInfraFlutterwaveWebhook payload) := by
  unfold Infra.applyInfraFlutterwaveWebhook
  dsimp only
  refine .ite (.pure _) (.bind (h.loadByExternalId _) fun found => ?_)
  cases found with
  | none => exact .pure _
  | some row =>
      refine .ite (.pure _) ?_
      split
      · exact .pure _
      · refine .ite (.pure _) (.ite (.bind (h.patch _ _) fun _ => .pure _) ?_)
        exact .ite (.pure _) (.bind (h.settle _ _) fun _ => .pure _)

theorem simulateSettlement (orgId env : String) (id : ℕ) :
    Safe services D pid (simulateSettlement orgId env id) := by
  unfold Infra.simulateSettlement
  refine .ite (.throw _) (.bind (h.load _ _) fun found => ?_)
  cases found with
  | none => exact .throw _
  | some row =>
      refine .ite (.throw _) (.ite (.throw _) ?_)
      split
      · exact h.settle _ _
      · exact h.finalize _ _

end LifecycleRules

end DayfiBackend.Infra
