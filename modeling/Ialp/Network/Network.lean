import Ialp.Runtime.Funds

/-!
Several domains, each running its own chain. A step is a step of one of the chains; what its
importer may submit depends on the state of all of them, so that packages can be delayed, dropped,
repeated and delivered in any order.
-/

namespace Ialp

open Scale Function Transition Relation

/-- The chains of all domains. `checked` records the byte strings hashed while importers verified
what they submitted. -/
structure Network (Balances : Type) where
  chains : DomainId → Chain Balances
  checked : List Bytes

namespace Network

variable {Balances : Type} (blake2 : Bytes → Hash32) (currency : Currency Balances)

def genesis (config : DomainId → GenesisConfig Balances) : Network Balances where
  chains domain := Chain.genesis { config domain with domainId := domain }
  checked := []

def act (domain : DomainId) (action : Chain.Action Balances) (strings : List Bytes)
    (network : Network Balances) : Network Balances where
  chains := update network.chains domain ((network.chains domain).apply blake2 currency action)
  checked := network.checked ++ strings

def system (permits : Network Balances → DomainId → Chain.Action Balances → List Bytes → Prop)
    (config : DomainId → GenesisConfig Balances) : System (Network Balances) where
  initial network := network = genesis config
  step network network' :=
    ∃ domain action strings, (network.chains domain).Enabled currency action ∧
    permits network domain action strings ∧
      network' = network.act blake2 currency domain action strings

variable {blake2 currency} {config : DomainId → GenesisConfig Balances} {network : Network Balances}
  {permits : Network Balances → DomainId → Chain.Action Balances → List Bytes → Prop}

theorem chain_reachable (reachable : (system blake2 currency permits config).Reachable network)
    (domain : DomainId) :
    (Chain.system blake2 currency { config domain with domainId := domain }).Reachable
      (network.chains domain) := by
  apply reachable.project fun network => network.chains domain
  · intro _ initial
    subst initial
    rfl
  · rintro network _ _ ⟨acting, action, strings, enabled, _, rfl⟩
    by_cases same : domain = acting
    · subst same
      apply ReflTransGen.single
      exact ⟨action, enabled, update_self _ _ _⟩
    · change ReflTransGen _ (network.chains domain) (update network.chains acting _ domain)
      rw [update_of_ne same]

section Scripts

abbrev Turn (Balances : Type) := DomainId × (Network Balances → Chain.Action Balances × List Bytes)

variable (blake2 currency) in
def tryAct (allowed : Network Balances → DomainId → Chain.Action Balances → List Bytes → Bool)
    (network : Network Balances) : Turn Balances → Option (Network Balances)
  | (domain, choose) =>
      if (network.chains domain).canApply (choose network).1 &&
          allowed network domain (choose network).1 (choose network).2 then
        some (network.act blake2 currency domain (choose network).1 (choose network).2)
      else none

variable (blake2 currency) in
def runScript (allowed : Network Balances → DomainId → Chain.Action Balances → List Bytes → Bool)
    (network : Network Balances) (script : List (Turn Balances)) : Option (Network Balances) :=
  script.foldlM (tryAct blake2 currency allowed) network

theorem reachable_of_script
    {allowed : Network Balances → DomainId → Chain.Action Balances → List Bytes → Bool}
    {script : List (Turn Balances)} {network' : Network Balances}
    (sound : ∀ turn ∈ script, ∀ network,
      allowed network turn.1 (turn.2 network).1 (turn.2 network).2 = true →
      permits network turn.1 (turn.2 network).1 (turn.2 network).2)
    (reachable : (system blake2 currency permits config).Reachable network)
    (ran : runScript blake2 currency allowed network script = some network') :
    (system blake2 currency permits config).Reachable network' := by
  refine reachable.steps
    (Transition.steps_of_script (fun turn member {before after} acted => ?_) ran)
  obtain ⟨accepted, same⟩ := Option.ite_none_right_eq_some.mp acted
  obtain ⟨applicable, allowed⟩ := (Bool.and_eq_true _ _).mp accepted
  exact ⟨_, _, _, Chain.enabled_of_canApply applicable, sound turn member before allowed,
    (Option.some.inj same).symm⟩

/-- Three domains with one-block epochs, one account that votes and imports, and equal balances. -/
def sampleConfig (domain : DomainId) : GenesisConfig (AccountId → Chain.Purse) where
  domainId := domain
  epochLengthBlocks := 1
  transfersImporter := some emptyHash
  protocolVersion := 1
  governanceImporter := some emptyHash
  governanceVoters := [emptyHash]
  balances _ := { free := 100, held := 0 }

def opens (domain : DomainId) : Turn (AccountId → Chain.Purse) :=
  (domain, fun _ => (.openBlock { parentHash := emptyHash, validatorSetHash := emptyHash }, []))

def closes (domain : DomainId) : Turn (AccountId → Chain.Purse) :=
  (domain, fun _ => (.closeBlock {
    stateRoot := emptyHash, extrinsicCount := 1, allExtrinsicsLen := 100, eventCount := 1 }, []))

end Scripts

end Network

end Ialp
