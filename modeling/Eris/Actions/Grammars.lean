import Eris.Actions.Enforced
import Eris.Actions.Taught

/-!
# The grammar taught and the grammar enforced

The schema an agent is taught and the reader of the runtime accept a value
alike exactly when the value lacks the shape of an action, or has traits of
both kinds or of none: traits which only the schema refuses and traits which
only the reader refuses.
-/

namespace Eris.Actions.Grammars

open Foundation Foundation.Validation ActionTypes ActionSchema Adapters
  ParseAction Drifts

/-- The schema accepts the value if and only if the reader does. -/
def GrammarsAgree (zod : Validator) (setup : Setup) (value : Doc) : Prop :=
  zod.accepts (agentActionSchemaFor setup.enabled) (some value) = true ↔
    (parseAction setup value).isOk = true

/-- A protocol is bundled by the schema if and only if its adapter bundles. -/
def BundlesAgree (protocol : ProtocolId) : Prop :=
  bundleableProtocols.contains protocol = bundleable protocol

/-- Under every validator and in every setup, the two grammars agree on the
values whose drifts agree and on no others; of the protocols, one is bundled by
its adapter and not by the schema. -/
theorem grammars_agree_iff (zod : Validator) (setup : Setup) :
    (∀ value,
      GrammarsAgree zod setup value ↔ (actionDrift setup value).agrees = true) ∧
      ∀ protocol, BundlesAgree protocol ↔ protocol ≠ .liquity := by
  constructor
  · intro value
    rw [GrammarsAgree, Taught.accepts_agentActionSchemaFor,
      Enforced.parseAction_isOk, Drift.agrees_iff]
  · intro protocol
    rw [BundlesAgree, Taught.contains_bundleableProtocols,
      Enforced.bundleable_eq]
    cases protocol <;> decide

def exampleSetup : Setup where
  markets _ := [⟨"WETH", "USDC", true⟩]
  stables := []
  lstListed := false
  enabled := [.uniswap, .liquity]
  spelled _ := "a value"

def troveBundle : Doc :=
  .object [("type", textDoc "bundle"),
      ("actions", .array [.object [("type", textDoc "liquityCloseTrove")]])]

/-- The runtime takes a bundle which the schema does not teach. -/
theorem grammars_disagree :
    ¬ ∀ (zod : Validator) (setup : Setup) (value : Doc),
        GrammarsAgree zod setup value := by
  intro agree
  have taught := (agree Validator.recursive exampleSetup troveBundle).mpr
      (by decide)
  revert taught
  decide

end Eris.Actions.Grammars
