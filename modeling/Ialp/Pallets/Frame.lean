import Ialp.Types.Basic

/-!
What the transfers and governance pallets take from the runtime around them: origins, fallible
dispatch, the block being executed and the currency.
-/

namespace Ialp

open Scale

/-- Accounts are 32 bytes, so that `account_to_bytes` is the identity and decoding never fails. -/
abbrev AccountId := AccountIdBytes

def accountToBytes (account : AccountId) : AccountIdBytes := account

def accountFromBytes (bytes : AccountIdBytes) : Option AccountId := some bytes

inductive Origin where
  | signed (who : AccountId)
  | root
  | unsigned
  deriving DecidableEq

structure CallContext where
  domainId : DomainId
  currentEpoch : EpochId
  blockNumber : UInt32
  extrinsicIndex : UInt32

section Dispatch

variable {ε α β : Type}

def ensure (condition : Prop) [Decidable condition] (error : ε) : Except ε Unit :=
  if condition then .ok () else .error error

def okOr (value : Option α) (error : ε) : Except ε α :=
  match value with
  | some value => .ok value
  | none => .error error

def ensureSigned (badOrigin : ε) : Origin → Except ε AccountId
  | .signed who => .ok who
  | _ => .error badOrigin

@[simp] theorem ok_bind (value : α) (next : α → Except ε β) :
    (Except.ok value >>= next) = next value := rfl

@[simp] theorem bind_eq_ok {step : Except ε α} {next : α → Except ε β} {result : β} :
    (step >>= next) = .ok result ↔ ∃ value, step = .ok value ∧ next value = .ok result := by
  cases step <;> simp [bind, Except.bind]

@[simp] theorem ensure_eq_ok {condition : Prop} [Decidable condition] {error : ε} {value : Unit} :
    ensure condition error = .ok value ↔ condition := by
  unfold ensure
  split <;> simp_all

@[simp] theorem mapError_eq_ok {ε' : Type*} {result : Except ε α} {f : ε → ε'} {value : α} :
    result.mapError f = .ok value ↔ result = .ok value := by
  cases result <;> simp [Except.mapError]

@[simp] theorem ensure_true (error : ε) : ensure True error = .ok () := rfl

@[simp] theorem okOr_eq_ok {value : Option α} {error : ε} {result : α} :
    okOr value error = .ok result ↔ value = some result := by
  cases value <;> simp [okOr]

@[simp] theorem ensureSigned_eq_ok {badOrigin : ε} {origin : Origin} {who : AccountId} :
    ensureSigned badOrigin origin = .ok who ↔ origin = .signed who := by
  cases origin <;> simp [ensureSigned]

theorem mapM_eq_ok {f : α → Except ε β} {g : α → β} {items : List α}
    (ok : ∀ item ∈ items, f item = .ok (g item)) : items.mapM f = .ok (items.map g) := by
  induction items with
  | nil => rfl
  | cons item rest ih =>
      have later := ih fun other member => ok other (List.mem_cons_of_mem _ member)
      rw [List.mapM_cons, ok item List.mem_cons_self, ok_bind, later, ok_bind]
      rfl

theorem exists_of_isOk {result : Except ε α} (succeeds : result.isOk = true) :
    ∃ value, result = .ok value := by
  cases result with
  | error => cases succeeds
  | ok value => exact ⟨value, rfl⟩

theorem bind_eq_error {step : Except ε α} {next : α → Except ε β} {error : ε} :
    (step >>= next) = .error error ↔
      step = .error error ∨ ∃ value, step = .ok value ∧ next value = .error error := by
  cases step <;> simp [bind, Except.bind]

theorem ensure_eq_error {condition : Prop} [Decidable condition] {error error' : ε} :
    ensure condition error = .error error' ↔ ¬ condition ∧ error = error' := by
  unfold ensure
  split <;> simp_all

theorem okOr_eq_error {value : Option α} {error error' : ε} :
    okOr value error = .error error' ↔ value = none ∧ error = error' := by
  cases value <;> simp [okOr]

theorem ensureSigned_eq_error {badOrigin error : ε} {origin : Origin} :
    ensureSigned badOrigin origin = .error error ↔ (∀ who, origin ≠ .signed who) ∧
      badOrigin = error := by
  cases origin <;> simp [ensureSigned]

end Dispatch

theorem update_eq_some {Key Value : Type} [DecidableEq Key]
    {map : Key → Option Value} {key other : Key} {value found : Value} :
    Function.update map key (some value) other = some found ↔
      (other = key ∧ value = found) ∨ (other ≠ key ∧ map other = some found) := by
  by_cases same : other = key
  · subst same
    simp
  · simp [same]

theorem isSome_update {Key Value : Type} [DecidableEq Key]
    {map : Key → Option Value} {key other : Key} {value : Value} (known : (map other).isSome) :
    (Function.update map key (some value) other).isSome := by
  by_cases same : other = key
  · subst same
    rw [Function.update_self]
    rfl
  · rw [Function.update_of_ne same]
    exact known

/-- An id is pushed onto a stored list unless it is there. -/
def appendOnce {α : Type} [DecidableEq α] (item : α) (items : List α) : List α :=
  if item ∈ items then items else items ++ [item]

theorem appendOnce_of_notMem {α : Type} [DecidableEq α] {item : α} {items : List α}
    (absent : item ∉ items) : appendOnce item items = items ++ [item] :=
  if_neg absent

theorem nodup_appendOnce {α : Type} [DecidableEq α] {items : List α} (item : α)
    (distinct : items.Nodup) : (appendOnce item items).Nodup := by
  unfold appendOnce
  split
  · exact distinct
  · rename_i absent
    exact distinct.append (List.nodup_singleton _) (by simpa using absent)

theorem length_appendOnce_le {α : Type} [DecidableEq α] (item : α) (items : List α) :
    (appendOnce item items).length ≤ items.length + 1 := by
  unfold appendOnce
  split
  · exact Nat.le_succ _
  · rw [List.length_append, List.length_singleton]

theorem mem_appendOnce {α : Type} [DecidableEq α] {item other : α} {items : List α} :
    other ∈ appendOnce item items ↔ other ∈ items ∨ other = item := by
  unfold appendOnce
  split
  · rename_i present
    constructor
    · exact .inl
    · intro member
      rcases member with old | same
      · exact old
      · exact same ▸ present
  · simp

/-- The fungible traits of `pallet_balances` the pallets use. `balanceOnHold` is the balance held
under `HoldReason::CrossDomainTransfer`. The laws say that `hold` and `burn_held` with
`Precision::Exact` move exactly the amount asked for on the account asked for, or fail, and that
`mint_into` touches no hold. -/
structure Currency (Balances : Type) where
  balance : Balances → AccountId → U128
  balanceOnHold : Balances → AccountId → U128
  hold : Balances → AccountId → U128 → Option Balances
  burnHeld : Balances → AccountId → U128 → Option Balances
  mintInto : Balances → AccountId → U128 → Option Balances
  hold_exact : ∀ {before after who amount}, hold before who amount = some after → ∀ account,
    (balanceOnHold after account).toNat =
      (balanceOnHold before account).toNat + if account = who then amount.toNat else 0
  burnHeld_exact : ∀ {before after who amount}, burnHeld before who amount = some after → ∀ account,
    (balanceOnHold after account).toNat + (if account = who then amount.toNat else 0) =
      (balanceOnHold before account).toNat
  mintInto_held : ∀ {before after who amount}, mintInto before who amount = some after → ∀ account,
    balanceOnHold after account = balanceOnHold before account

end Ialp
