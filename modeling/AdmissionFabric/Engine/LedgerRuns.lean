import AdmissionFabric.Engine.Lifetime

/-!
# Ledgers over the lifetime of a coordinator

The engine changes its ledger by reservations, releases and revalidation flags only, and a
recovery rebuilds it from reservations and flags. A property of ledgers that these keep holds in
every state of every run.
-/

namespace AdmissionFabric

variable {core : EngineCore} {ledger' ledger : AdmittedLoadLedger} {result : Except Status Unit}
    {prepares : List PrepareRecord}

/-- A property of ledgers that reservations and flags keep. -/
structure LedgerGrowth (I : AdmittedLoadLedger → Prop) : Prop where
  empty : I {}
  reserve : ∀ {ledger ledger' : AdmittedLoadLedger} {d : AdmissionDecisionId} {demand : DemandId}
    {epoch : FabricEpoch} {generation : Generation} {path : PathId}
    {amounts : List (ResourceId × Rate)} {result : Except Status Unit}, I ledger →
    ledger.reserve d demand epoch generation path amounts = (result, ledger') → I ledger'
  setFlags : ∀ {ledger : AdmittedLoadLedger} (flag : Bool), I ledger → I (ledger.setFlags flag)

/-- A property of ledgers that releases keep as well. -/
structure LedgerInvariant (I : AdmittedLoadLedger → Prop) : Prop extends LedgerGrowth I where
  release : ∀ {ledger ledger' : AdmittedLoadLedger} {d : AdmissionDecisionId}
    {entries : List LedgerEntry}, I ledger → ledger.release d = .ok (entries, ledger') → I ledger'

variable {I : AdmittedLoadLedger → Prop}

/-! ### Recovery -/

theorem holds_of_restoreLedger {d : AdmissionDecisionId}
    (h : restoreLedger ledger prepares = (result, ledger')) (hholds : ledger'.holds d = true) :
    ledger.holds d = true ∨ ∃ prepare ∈ prepares, prepare.decision = d := by
  induction prepares generalizing ledger with
  | nil =>
    obtain ⟨-, rfl⟩ := Prod.mk.inj h
    exact Or.inl hholds
  | cons prepare rest ih =>
    have hreserved : ∀ {result : Except Status Unit} {reserved : AdmittedLoadLedger},
        ledger.reserve prepare.decision prepare.demand prepare.epoch
          prepare.boundCapacityGeneration prepare.path prepare.amounts = (result, reserved) →
        reserved.holds d = true →
        ledger.holds d = true ∨ ∃ p ∈ prepare :: rest, p.decision = d := by
      intro result reserved hreserve hd
      exact (AdmittedLoadLedger.holds_of_reserve hreserve hd).imp id
        fun heq => ⟨prepare, List.mem_cons_self, heq.symm⟩
    rw [restoreLedger] at h
    split at h
    · rename_i hreserve
      obtain ⟨-, rfl⟩ := Prod.mk.inj h
      exact hreserved hreserve hholds
    · rename_i hreserve
      rcases ih h with hd | ⟨p, hp, hd⟩
      · exact hreserved hreserve hd
      · exact Or.inr ⟨p, List.mem_cons_of_mem _ hp, hd⟩

theorem wellFormed_restoreLedger
    (hnodup : ∀ prepare ∈ prepares, (prepare.amounts.map Prod.fst).Nodup)
    (hwf : ledger.WellFormed) (h : restoreLedger ledger prepares = (result, ledger')) :
    ledger'.WellFormed := by
  induction prepares generalizing ledger with
  | nil =>
    obtain ⟨-, rfl⟩ := Prod.mk.inj h
    exact hwf
  | cons prepare rest ih =>
    obtain ⟨hfirst, hrest⟩ := List.forall_mem_cons.mp hnodup
    have hreserved := hwf.reserve prepare.decision prepare.demand prepare.epoch
      prepare.boundCapacityGeneration prepare.path hfirst
    rw [restoreLedger] at h
    split at h
    · rename_i hreserve
      obtain ⟨-, rfl⟩ := Prod.mk.inj h
      rwa [hreserve] at hreserved
    · rename_i hreserve
      rw [hreserve] at hreserved
      exact ih hrest hreserved h

namespace LedgerGrowth

theorem restoreLedger (h : LedgerGrowth I) (hI : I ledger)
    (hrestore : AdmissionFabric.restoreLedger ledger prepares = (result, ledger')) : I ledger' := by
  induction prepares generalizing ledger with
  | nil =>
    obtain ⟨-, rfl⟩ := Prod.mk.inj hrestore
    exact hI
  | cons prepare rest ih =>
    rw [AdmissionFabric.restoreLedger] at hrestore
    split at hrestore
    · rename_i status reserved hreserve
      obtain ⟨-, rfl⟩ := Prod.mk.inj hrestore
      exact h.reserve hI hreserve
    · rename_i reserved hreserve
      exact ih (h.reserve hI hreserve) hrestore

theorem boot (h : LedgerGrowth I) (config : EngineConfig) (journal : Journal) :
    I (EngineCore.boot config journal).2.ledger := by
  have heffect := EngineCore.boot_effect config journal
  generalize (EngineCore.boot config journal).2 = core,
    (EngineCore.boot config journal).1.status = status at heffect ⊢
  cases heffect with
  | unopened _ | unread _ => exact h.empty
  | read _ hrecover =>
    cases hrecover with
    | refused _ => exact h.empty
    | unrestored _ hrestore => exact h.restoreLedger h.empty hrestore
    | restored _ hrestore hfinish =>
      have hflagged := h.setFlags true (h.restoreLedger h.empty hrestore)
      cases hfinish <;> exact hflagged

theorem restart (h : LedgerGrowth I) (core : EngineCore) (config : EngineConfig) (surviving : Nat)
    (disk : List DiskOutcome) : I (core.restart config surviving disk).2.ledger := by
  unfold EngineCore.restart
  split
  · exact h.empty
  · exact h.boot config _

end LedgerGrowth

/-! ### Runs -/

/-- An engine without a journal, or one that has opened its journal. -/
def EngineCore.Started (core : EngineCore) : Prop :=
  ∃ config, core = EngineCore.fresh config ∨ ∃ journal, core = (EngineCore.boot config journal).2

theorem LedgerGrowth.started (h : LedgerGrowth I) (hstarted : core.Started) : I core.ledger := by
  obtain ⟨config, rfl | ⟨journal, rfl⟩⟩ := hstarted
  · exact h.empty
  · exact h.boot config journal

namespace LedgerInvariant

theorem ofStores (I : AdmittedLoadLedger → Prop) :
    EngineCore.OfStores fun core => I core.ledger := by
  intro core core' hstores hI
  have hledger : core'.ledger = core.ledger := congrArg EngineCore.Stores.ledger hstores
  rwa [hledger]

theorem preserved (h : LedgerInvariant I) :
    EngineCore.Preserved fun core => I core.ledger where
  refusal core request claim reason evidence recordAttempt hI := by
    generalize hcall : core.consumeIdentity.finishRefusal _ _ _ = outcome
    cases EngineCore.finishRefusal_effect hcall <;> exact hI
  grant core request claim grant _ hI := by
    generalize hcall : core.consumeIdentity.finishAdmission _ _ _ = outcome
    cases EngineCore.finishAdmission_effect hcall with
    | unprepared _ => exact hI
    | unreserved _ hreserve => exact h.reserve hI hreserve
    | @uncommitted _ _ _ ledger _ hreserve _ =>
      have hreserved := h.reserve hI hreserve
      exact EngineCore.undone_induction (P := I) hreserved fun _ _ hrelease =>
        h.release hreserved hrelease
    | committed _ hreserve _ =>
      rw [EngineCore.compactIfNeededLocked_snd]
      exact h.reserve hI hreserve
  release core d reason explanation _ hI := by
    generalize hcall : core.releaseDecisionLocked d reason .revoked explanation = outcome
    cases EngineCore.releaseDecisionLocked_effect hcall with
    | unheld _ | unwritten _ _ | stuck _ _ _ => exact hI
    | unmarked _ _ hrelease _ | released _ _ hrelease _ => exact h.release hI hrelease
  mark _ _ _ _ _ hI := hI
  note _ _ _ hI := hI
  compact core hI := by
    rw [EngineCore.compactLocked_snd]
    exact hI
  clearFlags _ hI := h.setFlags false hI
  tidy core core' hstores _ hI := ofStores I core core' hstores hI

theorem perform (h : LedgerInvariant I) (hI : I core.ledger) (operation : Operation) :
    I (core.perform operation).2.ledger :=
  h.preserved.perform (ofStores I) hI operation

theorem follow (h : LedgerInvariant I) (hI : I core.ledger) (event : Event) :
    I (core.follow event).ledger := by
  cases event with
  | call call =>
    have hdisk : I (core.onDisk call.disk).ledger := hI
    exact h.perform hdisk call.operation
  | restart config surviving disk => exact h.restart core config surviving disk

end LedgerInvariant

end AdmissionFabric
