import LawyerAgent.Common

/-!
# Tenancy domain

Tenants, departments and memberships, with the checks their constructors make.
A membership is in force from `validFrom` until just before `validUntil`.
-/

set_option autoImplicit false

namespace LawyerAgent.Tenancy
open Common

inductive TenantStatus where
  | pendingVerification
  | active
  | suspended
  | closed
deriving DecidableEq, Repr

inductive DepartmentStatus where
  | active
  | disabled
deriving DecidableEq, Repr

inductive MembershipStatus where
  | invited
  | active
  | suspended
  | revoked
deriving DecidableEq, Repr

inductive MemberType where
  | owner
  | internal
  | student
  | externalClient
deriving DecidableEq, Repr

structure MembershipFields where
  id : UUID7
  tenantId : UUID7
  userId : UUID7
  departmentId : Option UUID7
  memberType : MemberType
  status : MembershipStatus
  validFrom : Time
  validUntil : Option Time
  authzVersion : ℕ
  version : ℕ
deriving DecidableEq

def membershipChecks : Checks MembershipFields := fun m =>
  [(m.validUntil.all (decide <| m.validFrom < ·),"membership validity window is invalid"),
   (0 < m.authzVersion,"version must be a positive integer"),
   (0 < m.version,"version must be a positive integer")]

abbrev Membership : Type := Checked membershipChecks

def inForce (validFrom : Time) (validUntil : Option Time) (now : Time) : Bool :=
  decide (validFrom ≤ now) && validUntil.all (decide <| now < ·)

end LawyerAgent.Tenancy
