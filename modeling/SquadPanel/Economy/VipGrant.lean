import Mathlib.Data.Int.Basic

/-!
# Planning a VIP grant

The decision shared by the privilege shop, self-service purchases and subscription
renewals.  Instants are milliseconds.
-/

namespace SquadPanel.Economy

variable {Role : Type}

def DAY_MS : Int := 86400000

/-- The purchasable shape of a VIP tier, already resolved and priced. -/
structure VipGrantTier (Role : Type) where
  roleId : Role
  days : Int
  price : Int
deriving DecidableEq, Repr

/-- The columns of `players` that the economy reads and writes. -/
structure PlayerRow (Role : Type) where
  bonusBalance : Int
  roleId : Option Role
  roleExpiresAt : Option Int
deriving DecidableEq, Repr

inductive VipGrantPlan (Role : Type) where
  | ok (price nextBalance : Int) (roleId : Role) (roleExpiresAt : Int)
  | insufficientBalance (balance : Int)
  | roleConflict
  | rolePermanent
deriving DecidableEq, Repr

/-- An unexpired role of the same kind is extended, anything else starts now. -/
def grantBase (roleExpiresAt : Option Int) (now : Int) : Int :=
  match roleExpiresAt with
  | some expiresAt => if expiresAt > now then expiresAt else now
  | none => now

def planVipGrant [DecidableEq Role] (state : PlayerRow Role) (tier : VipGrantTier Role)
    (now : Int) : VipGrantPlan Role :=
  let nextBalance := state.bonusBalance - tier.price
  if nextBalance < 0 then .insufficientBalance state.bonusBalance
  else
    match state.roleId with
    | none => .ok tier.price nextBalance tier.roleId (now + tier.days * DAY_MS)
    | some roleId =>
      if roleId ≠ tier.roleId then .roleConflict
      else if state.roleExpiresAt = none then .rolePermanent
      else
        .ok tier.price nextBalance tier.roleId
          (grantBase state.roleExpiresAt now + tier.days * DAY_MS)

def nextRenewalAfter (dueAt days : Int) : Int :=
  dueAt + days * DAY_MS

/-- A plan charges the tier's price and nothing else. -/
theorem planVipGrant_ok [DecidableEq Role] {state : PlayerRow Role} {tier : VipGrantTier Role}
    {now price nextBalance roleExpiresAt : Int} {roleId : Role}
    (hplan : planVipGrant state tier now = .ok price nextBalance roleId roleExpiresAt) :
    price = tier.price ∧ nextBalance = state.bonusBalance - tier.price ∧ 0 ≤ nextBalance ∧
      roleId = tier.roleId := by
  unfold planVipGrant at hplan
  dsimp only at hplan
  split at hplan
  · cases hplan
  · next hcovered =>
    split at hplan
    · cases hplan
      exact ⟨rfl, rfl, Int.not_lt.1 hcovered, rfl⟩
    · split at hplan
      · cases hplan
      · split at hplan
        · cases hplan
        · cases hplan
          exact ⟨rfl, rfl, Int.not_lt.1 hcovered, rfl⟩

end SquadPanel.Economy
