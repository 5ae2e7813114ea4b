/-!
# Properties.Names

The names that `ValidationPatterns.NAME_STRICT_PATTERN` and `PropertySupport.PROP_PATTERN` let
through. Neither has a dot in it, and the names of sites and applications have no underscore.
-/

namespace AppNG
namespace Properties

/-- `[a-zA-Z0-9\-]` -/
def isNameChar (c : Char) : Bool := c.isAlphanum || c == '-'

/-- `[a-zA-Z0-9\-_]` -/
def isPropertyChar (c : Char) : Bool := isNameChar c || c == '_'

/-- The name of a site or an application: `[a-zA-Z0-9\-]{3,}`. -/
structure StrictName where
  value : String
  chars : ∀ c ∈ value.toList, isNameChar c = true
  length : 3 ≤ value.toList.length

/-- The id of a property: `[a-zA-Z0-9\-_]+`. -/
structure PropertyId where
  value : String
  chars : ∀ c ∈ value.toList, isPropertyChar c = true
  length : 1 ≤ value.toList.length

instance : DecidableEq StrictName := fun a b =>
  decidable_of_iff (a.value = b.value) ⟨fun h => by cases a; cases b; cases h; rfl, congrArg _⟩

instance : DecidableEq PropertyId := fun a b =>
  decidable_of_iff (a.value = b.value) ⟨fun h => by cases a; cases b; cases h; rfl, congrArg _⟩

variable {c : Char} {name : StrictName}

theorem StrictName.ext {a b : StrictName} (h : a.value = b.value) : a = b := by
  cases a
  cases b
  cases h
  rfl

theorem PropertyId.ext {a b : PropertyId} (h : a.value = b.value) : a = b := by
  cases a
  cases b
  cases h
  rfl

theorem StrictName.ne_of_mem (h : c ∈ name.value.toList) : c ≠ '.' ∧ c ≠ '_' ∧ c ≠ '%' := by
  have hc := name.chars c h
  refine ⟨?_, ?_, ?_⟩ <;> rintro rfl <;> exact absurd hc (by decide)

theorem PropertyId.no_dot (id : PropertyId) : '.' ∉ id.value.toList := by
  intro h
  exact absurd (id.chars '.' h) (by decide)

end Properties
end AppNG
