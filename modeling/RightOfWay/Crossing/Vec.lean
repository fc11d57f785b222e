/-!
# Vectors

Locations and directions are vectors of doubles.  Traffic moves in the plane of the first two
coordinates, and the third is height.

The operations are those of double arithmetic, and their order matters: sums are taken from left to
right, and nothing is fused.
-/

set_option autoImplicit false

namespace RightOfWay

/-- The distance from one to the next larger double. -/
def epsilon : Float := 2.220446049250313e-16

/-- A location or a direction. -/
structure Vec where
  x : Float
  y : Float
  z : Float

namespace Vec

/-- The vector at height zero. -/
def planar (x y : Float) : Vec := ⟨x, y, 0⟩

def zero : Vec := planar 0 0

instance : Add Vec := ⟨fun a b ↦ ⟨a.x + b.x, a.y + b.y, a.z + b.z⟩⟩

instance : Sub Vec := ⟨fun a b ↦ ⟨a.x - b.x, a.y - b.y, a.z - b.z⟩⟩

/-- The vector with each coordinate multiplied. -/
def scale (a : Vec) (k : Float) : Vec := ⟨a.x * k, a.y * k, a.z * k⟩

def dot (a b : Vec) : Float := a.x * b.x + a.y * b.y + a.z * b.z

def cross (a b : Vec) : Vec :=
  ⟨a.y * b.z - a.z * b.y, a.z * b.x - a.x * b.z, a.x * b.y - a.y * b.x⟩

/-- The height of the cross product. -/
def crossHeight (a b : Vec) : Float := a.x * b.y - a.y * b.x

def length (a : Vec) : Float := (a.dot a).sqrt

def isFinite (a : Vec) : Bool := a.x.isFinite && a.y.isFinite && a.z.isFinite

/-- The vector brought to height zero. -/
def flatten (a : Vec) : Vec := planar a.x a.y

/-- The vector of the same direction and length one.  A vector whose length is next to zero or not
finite has no direction. -/
def unit? (a : Vec) : Option Vec :=
  let length := a.length
  if !length.isFinite || length ≤ epsilon then none
  else some ⟨a.x / length, a.y / length, a.z / length⟩

/-- The cosine of the angle between two vectors seen from above, and zero if
one has no direction. -/
def planarCosine (a b : Vec) : Float :=
  match a.flatten.unit?, b.flatten.unit? with
  | some a, some b => a.dot b
  | _, _ => 0

end Vec
end RightOfWay
