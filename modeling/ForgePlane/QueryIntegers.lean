import ForgePlane.DiskQuota

/-!
# Integers in query strings

`parseInt64Query` adds the digits up in 64-bit arithmetic and never looks at the size of the
sum, so the text of a number that is too large comes back as another number.
-/

namespace ForgePlane.QueryIntegers

open DiskQuota

def invalid (char : Char) : Bool := char < '0' || '9' < char

end ForgePlane.QueryIntegers
