/-!
# The double nearest to a decimal

A decimal is read as the double nearest to it, a tie going to the even mantissa. An exponent may be
written with any number of digits, so decimals that lie beyond all doubles on either side are told
apart first, by the place of their leading digit, and no power is taken of such an exponent.
-/

namespace SharedScene.Decimal

/-- From this power of ten on, the leading digit alone is beyond every finite double. -/
def overflowPlace : Int := 310

/-- Below this power of ten a number is nearer to zero than to any other double. -/
def underflowPlace : Int := -330

def infinity : Float := 1.0 / 0.0

/-- The double nearest to `digits · 10^exponent`. -/
def nearest (digits : Nat) (exponent : Int) : Float :=
  if digits = 0 then 0.0
  else
    let place := ((toString digits).length : Int) + exponent
    if place > overflowPlace then infinity
    else if place < underflowPlace then 0.0
    else if exponent ≥ 0 then Float.ofScientific digits false exponent.toNat
    else Float.ofScientific digits true (-exponent).toNat

end SharedScene.Decimal
