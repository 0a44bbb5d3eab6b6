/-!
# Sums of quantities

Quantities are doubles, so the order of a sum counts.
-/

namespace PolicyLevers

set_option autoImplicit false

/-- The sum of quantities from left to right.  It starts from a negative zero, the one number that
adds nothing to either zero. -/
def total (values : List Float) : Float := values.foldl (· + ·) (-0.0)

end PolicyLevers
