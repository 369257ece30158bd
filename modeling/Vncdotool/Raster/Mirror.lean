import Vncdotool.Raster.Picture

/-!
# Mirror — a desktop that is watched through edits

A desktop shows a picture that may change at any time, and somebody watches it who is only sent
edits.  What has changed since it was last sent is owed; a region that is sent is owed no longer, and
what a new size brings into sight is owed first.  Whoever makes the edits sees the desktop, but for
what is owed (`Desktop.Seen`).
-/

namespace Raster

variable {α : Type*}

/-- A desktop, and the places that do not look to the watcher as they do now. -/
structure Desktop (α : Type*) where
  width : ℕ
  height : ℕ
  picture : Picture α
  owed : ℕ → ℕ → Prop

namespace Desktop

/-- Nothing of it has been sent yet. -/
def unsent (width height : ℕ) (picture : Picture α) : Desktop α :=
  ⟨width, height, picture, fun _ _ => True⟩

/-- Something else is drawn on the desktop. -/
def draw (d : Desktop α) (picture : Picture α) : Desktop α :=
  { d with
    picture := picture
    owed := fun col row => d.owed col row ∨ picture col row ≠ d.picture col row }

/-- The cells of a region are sent. -/
def send (d : Desktop α) (r : Region) : Desktop α :=
  { d with owed := fun col row => d.owed col row ∧ ¬ r.Covers col row }

/-- The desktop gets another size. -/
def resize (d : Desktop α) (width height : ℕ) : Desktop α :=
  { d with
    width := width
    height := height
    owed := fun col row => d.owed col row ∨ ¬ (col < d.width ∧ row < d.height) }

/-- Everything but what is owed is seen as it is. -/
def Seen (d : Desktop α) (seen : Picture α) : Prop :=
  ∀ col < d.width, ∀ row < d.height, ¬ d.owed col row → seen col row = d.picture col row

section Seen

variable {d : Desktop α} {seen tile : Picture α} {r : Region}

theorem seen_unsent (width height : ℕ) (picture seen : Picture α) :
    (unsent width height picture).Seen seen :=
  fun _ _ _ _ howed => absurd trivial howed

/-- What has changed is owed. -/
theorem Seen.draw (h : d.Seen seen) (picture : Picture α) : (d.draw picture).Seen seen := by
  intro col hcol row hrow howed
  rcases not_or.1 howed with ⟨hsent, hsame⟩
  exact (h col hcol row hrow hsent).trans (not_not.1 hsame).symm

/-- The cells that are sent are those of the desktop. -/
theorem Seen.send (h : d.Seen seen)
    (htile : ∀ col < d.width, ∀ row < d.height, r.Covers col row →
      tile (col - r.x) (row - r.y) = d.picture col row) :
    (d.send r).Seen (seen.paint r tile) := by
  intro col hcol row hrow howed
  by_cases hcovers : r.Covers col row
  · rw [Picture.paint_of_covers hcovers]
    exact htile col hcol row hrow hcovers
  · rw [Picture.paint_of_not_covers hcovers]
    exact h col hcol row hrow fun hstill => howed ⟨hstill, hcovers⟩

/-- A region without cells pays nothing off. -/
theorem Seen.send_empty (h : d.Seen seen) (hempty : ∀ col row, ¬ r.Covers col row) :
    (d.send r).Seen seen :=
  fun col hcol row hrow howed => h col hcol row hrow fun hstill => howed ⟨hstill, hempty col row⟩

/-- What is cut off is owed when it comes back. -/
theorem Seen.resize (h : d.Seen seen) (width height : ℕ) (blank : α) :
    (d.resize width height).Seen (seen.crop width height blank) := by
  intro col hcol row hrow howed
  rcases not_or.1 howed with ⟨hsent, hinside⟩
  rcases not_not.1 hinside with ⟨hcol', hrow'⟩
  exact (Picture.crop_of_inside ⟨hcol, hrow⟩).trans (h col hcol' row hrow' hsent)

end Seen

end Desktop

end Raster
