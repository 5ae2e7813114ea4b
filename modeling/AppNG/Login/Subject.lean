/-!
# Login.Subject

`SubjectImpl`, as far as logging in and resetting a password read and write it. A date is a number
of milliseconds, `none` stands for `null`.
-/

namespace AppNG
namespace Login

abbrev Date := Int

inductive UserType where
  | localUser
  | globalUser
  | globalGroup
  deriving DecidableEq, Repr

inductive PasswordChangePolicy where
  | mustNot
  | may
  | must
  | mustRecover
  deriving DecidableEq, Repr

/-- `S` are the salts, `D` the digests of passwords. -/
structure Subject (S D : Type) where
  userType : UserType
  email : Option String
  digest : Option D
  salt : Option S
  authenticated : Bool
  lastLogin : Option Date
  passwordLastChanged : Option Date
  locked : Bool
  passwordChangePolicy : PasswordChangePolicy
  failedLoginAttempts : Int
  expiryDate : Option Date
  deriving DecidableEq, Repr

variable {S D : Type}

def Subject.isExpired (subject : Subject S D) (date : Date) : Bool :=
  match subject.expiryDate with
  | none => false
  | some expiryDate => expiryDate < date

/-- `addDays` is that of `DateUtils`. -/
def Subject.isInactive (addDays : Date → Int → Date) (subject : Subject S D) (now : Date)
    (inactiveLockPeriod : Int) : Bool :=
  match subject.lastLogin with
  | none => false
  | some lastLogin => 0 < inactiveLockPeriod && addDays lastLogin inactiveLockPeriod < now

end Login
end AppNG
