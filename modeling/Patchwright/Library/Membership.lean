import Mathlib

/-!
# Deciding membership

Membership in a list is decided by comparing its items, which takes that the
comparison is lawful.  That it is for texts and for pairs is found once here.
-/

namespace Membership

instance lawfulChars : LawfulBEq (List Char) := inferInstance

instance lawfulNumbered : LawfulBEq (String × Nat) := inferInstance

end Membership
