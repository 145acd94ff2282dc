import ArrayForks.Binary64.Decoded

/-! # The remainder of doubles

The remainder of a truncating division of two doubles. It is computed in exact integers over the
common scale of both operands, and is always a double itself: its magnitude is at most the dividend
and below the divisor, and it is a multiple of the finer of their two scales. -/

namespace ArrayForks.Binary64

/-- What is left of the dividend after taking away the divisor as often as it fits, with the sign
of the dividend. An infinite dividend, a zero divisor and an undefined operand have no remainder;
an infinite divisor leaves the dividend as it is. -/
def remainder (dividend divisor : Float) : Float :=
  match decode dividend, decode divisor with
  | .finite negative mantissa exponent, .finite _ mantissa' exponent' =>
      if mantissa' = 0 then nan
      else
        let scale := min exponent exponent'
        let left := mantissa <<< (exponent - scale).toNat
        let right := mantissa' <<< (exponent' - scale).toNat
        encode negative (left % right) scale
  | .finite _ _ _, .infinite _ => dividend
  | _, _ => nan

end ArrayForks.Binary64
