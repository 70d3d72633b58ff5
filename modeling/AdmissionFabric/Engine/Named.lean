import AdmissionFabric.Engine.Transactions

/-!
# Identities that have been issued

The cache and the registry name decisions by identities that the engine has issued, so the next
identity names nothing yet.
-/

namespace AdmissionFabric

open AttemptRegistry

namespace EngineCore

variable {core core' : EngineCore}

/-- The cache and the registry name no decision that has not been issued. -/
structure Named (core : EngineCore) : Prop where
  cached : ∀ (d : AdmissionDecisionId) decision, core.decisionCache[d]? = some decision →
    d < core.nextDecisionSequence ∧ decision.decision < core.nextDecisionSequence ∧
      decision.audit < core.audit
  attempted : ∀ (key : DemandId × AttemptId) (attempt : AttemptRecord),
    core.attempts.attempts[key]? = some attempt → attempt.decision < core.nextDecisionSequence

namespace Named

theorem mono (h : core.Named) (hcache : core'.decisionCache = core.decisionCache)
    (hattempts : core'.attempts = core.attempts)
    (hnext : core.nextDecisionSequence ≤ core'.nextDecisionSequence)
    (haudit : core.audit ≤ core'.audit) : core'.Named where
  cached d decision hget := by
    obtain ⟨hd, hdecision, haudit'⟩ := h.cached d decision (hcache ▸ hget)
    exact ⟨hd.trans_le hnext, hdecision.trans_le hnext, haudit'.trans_le haudit⟩
  attempted key attempt hget := (h.attempted key attempt (hattempts ▸ hget)).trans_le hnext

theorem of_stores (h : core.Named) (hstores : core'.stores = core.stores) : core'.Named :=
  h.mono (congrArg Stores.decisionCache hstores) (congrArg Stores.attempts hstores)
    (Nat.le_of_eq (congrArg Stores.nextDecisionSequence hstores).symm)
    (Nat.le_of_eq (congrArg Stores.audit hstores).symm)

theorem of_empty (hcache : core.decisionCache = ∅) (hattempts : core.attempts.attempts = ∅) :
    core.Named where
  cached d decision hget := by simp [hcache] at hget
  attempted key attempt hget := by simp [hattempts] at hget

theorem settle (h : core.Named) (core' : EngineCore) (decision : AdmissionDecision)
    (record : DecisionRecord) (attempt : Option AttemptRecord)
    (hdecision : decision.decision = core.nextDecisionSequence)
    (haudit : decision.audit = core.audit)
    (hattempt : ∀ a ∈ attempt, a.decision = decision.decision)
    (hcache : core'.decisionCache = core.decisionCache) (hattempts : core'.attempts = core.attempts)
    (hnext : core'.nextDecisionSequence = core.nextDecisionSequence + 1)
    (haudit' : core'.audit = core.audit + 1) : (core'.settle decision record attempt).Named := by
  have hold : core'.Named :=
    h.mono hcache hattempts (hnext ▸ Nat.le_succ _) (haudit' ▸ Nat.le_succ _)
  have hbelow : decision.decision < core'.nextDecisionSequence := by
    rw [hdecision, hnext]
    exact Nat.lt_succ_self _
  refine ⟨fun d cached hget => ?_, fun key a hget => ?_⟩
  · rcases getElem?_remember hget with ⟨rfl, rfl⟩ | hcached
    · refine ⟨hbelow, hbelow, ?_⟩
      change cached.audit < core'.audit
      rw [haudit, haudit']
      exact Nat.lt_succ_self _
    · exact hold.cached d cached hcached
  · cases attempt with
    | none => exact hold.attempted key a hget
    | some recorded =>
      rcases of_getElem?_attempts_record hget with rfl | hkept
      · rw [hattempt a rfl]
        exact hbelow
      · exact hold.attempted key a hkept

end Named

theorem preserved_named : Preserved Named where
  refusal core request claim reason evidence recordAttempt h := by
    generalize hcall : core.consumeIdentity.finishRefusal _ _ _ = outcome
    cases finishRefusal_effect hcall with
    | unwritten _ => exact h.mono rfl rfl (Nat.le_succ _) (Nat.le_succ _)
    | @settled journal _ =>
      refine h.settle { core.consumeIdentity with journal } _ _ _
        (core.decision_refusal request claim reason evidence)
        (core.audit_refusal request claim reason evidence) (fun a ha => ?_) rfl rfl rfl rfl
      cases recordAttempt with
      | false => cases ha
      | true =>
        obtain rfl := Option.some.inj ha
        rfl
  grant core request claim grant _ h := by
    generalize hcall : core.consumeIdentity.finishAdmission _ _ _ = outcome
    cases finishAdmission_effect hcall with
    | unprepared _ | unreserved _ _ | uncommitted _ _ _ =>
      exact h.mono rfl rfl (Nat.le_succ _) (Nat.le_succ _)
    | @committed _ journal' ledger _ _ _ =>
      rw [compactIfNeededLocked_snd]
      have hsettled := h.settle { core.consumeIdentity with journal := journal', ledger }
        (core.admission request claim grant)
        (core.consumeIdentity.liveRecord (core.admission request claim grant))
        (some (core.consumeIdentity.attemptOf request (core.admission request claim grant))) rfl rfl
        (fun a ha => Option.some.inj ha ▸ rfl) rfl rfl rfl rfl
      exact hsettled.mono rfl rfl le_rfl le_rfl
  release core d reason explanation _ h := by
    generalize hcall : core.releaseDecisionLocked d reason .revoked explanation = outcome
    cases releaseDecisionLocked_effect hcall with
    | unheld _ | unwritten _ _ | stuck _ _ _ | unmarked _ _ _ _ =>
      exact h.mono rfl rfl le_rfl le_rfl
    | released _ _ _ _ =>
      refine ⟨fun d' decision hget => h.cached d' decision ?_, h.attempted⟩
      change (core.decisionCache.erase d)[d']? = some decision at hget
      rw [Std.ExtTreeMap.getElem?_erase] at hget
      split at hget
      · cases hget
      · exact hget
  mark _ _ _ _ _ h := h.mono rfl rfl le_rfl le_rfl
  note _ _ _ h := h.mono rfl rfl le_rfl le_rfl
  compact core h := by
    rw [compactLocked_snd]
    exact h.mono rfl rfl le_rfl le_rfl
  clearFlags _ h := h.mono rfl rfl le_rfl le_rfl
  tidy _ _ hstores _ h := h.of_stores hstores

theorem ofStores_named : OfStores Named := fun _ _ hstores h => h.of_stores hstores

end EngineCore

end AdmissionFabric
