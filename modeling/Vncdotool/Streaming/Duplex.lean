import Mathlib.Data.List.Basic
import Mathlib.Logic.Relation

/-!
# Duplex — two parties talking over a pair of streams

Each party is handed what the other one has said, a piece at a time and in order; what is not handed
over yet is under way.  Nothing else is assumed of the network: the pieces are cut anywhere and the
two directions take turns as they like.

When what a party has said depends only on what it has heard, and a party that hears more has said
more, the order does not matter.  One run that comes to rest then tells how every run ends.
-/

namespace Streaming

variable {σ τ α β : Type*}

/-! ## Parties -/

/-- What a delivery may make of a party, and what it has said so far. -/
structure Party (σ α β : Type*) where
  receive : σ → List α → σ → Prop
  said : σ → List β
  said_prefix : ∀ s chunk s', receive s chunk s' → said s <+: said s'

namespace Party

variable (P : Party σ α β)

/-- Deliveries that add up to `heard` have brought the party from `s` to where it is. -/
inductive Heard (s : σ) : List α → σ → Prop
  | nil : Heard s [] s
  | snoc {heard chunk : List α} {t u : σ} (h : Heard s heard t) (hreceive : P.receive t chunk u) :
      Heard s (heard ++ chunk) u

/-- Up to `all`, a party that has heard more has said more, however it was handed over. -/
def Causal (s : σ) (all : List α) : Prop :=
  ∀ heard heard' t t', P.Heard s heard t → P.Heard s heard' t' → heard <+: heard' →
    heard' <+: all → P.said t <+: P.said t'

/-- Up to `all`, the next piece can always be handed over. -/
def Open (s : σ) (all : List α) : Prop :=
  ∀ heard chunk t, P.Heard s heard t → heard ++ chunk <+: all → ∃ u, P.receive t chunk u

variable {P} {s t u : σ} {heard more : List α}

theorem Heard.said_prefix (h : P.Heard s heard t) : P.said s <+: P.said t := by
  induction h with
  | nil => exact List.prefix_refl _
  | snoc _ hreceive ih => exact ih.trans (P.said_prefix _ _ _ hreceive)

end Party

/-! ## Networks -/

/-- Two parties, and what each of them has been handed. -/
structure Duplex (σ τ α β : Type*) where
  left : σ
  right : τ
  toLeft : List α
  toRight : List β

namespace Duplex

variable (A : Party σ α β) (B : Party τ β α)

/-- A piece of what is under way is handed over. -/
inductive Step : Duplex σ τ α β → Duplex σ τ α β → Prop
  | left {c : Duplex σ τ α β} {chunk : List α} {s' : σ} (hchunk : chunk ≠ [])
      (hway : c.toLeft ++ chunk <+: B.said c.right) (hreceive : A.receive c.left chunk s') :
      Step c { c with left := s', toLeft := c.toLeft ++ chunk }
  | right {c : Duplex σ τ α β} {chunk : List β} {t' : τ} (hchunk : chunk ≠ [])
      (hway : c.toRight ++ chunk <+: A.said c.left) (hreceive : B.receive c.right chunk t') :
      Step c { c with right := t', toRight := c.toRight ++ chunk }

/-- Deliveries, in any order. -/
def Runs : Duplex σ τ α β → Duplex σ τ α β → Prop :=
  Relation.ReflTransGen (Step A B)

/-- Nothing is handed over that was not said. -/
structure Sound (c : Duplex σ τ α β) : Prop where
  left : c.toLeft <+: B.said c.right
  right : c.toRight <+: A.said c.left

/-- Nothing is under way. -/
structure AtRest (c : Duplex σ τ α β) : Prop where
  left : c.toLeft = B.said c.right
  right : c.toRight = A.said c.left

/-- From `c`, the parties have been handed `heard` and `heard'`. -/
structure Since (c : Duplex σ τ α β) (heard : List α) (heard' : List β) (d : Duplex σ τ α β) :
    Prop where
  left : A.Heard c.left heard d.left
  right : B.Heard c.right heard' d.right
  toLeft : d.toLeft = c.toLeft ++ heard
  toRight : d.toRight = c.toRight ++ heard'

variable {A B} {c d e : Duplex σ τ α β} {heard all : List α} {heard' all' : List β}

theorem Sound.step (h : Sound A B c) (hstep : Step A B c d) : Sound A B d := by
  cases hstep with
  | left _ hway hreceive => exact ⟨hway, h.right.trans (A.said_prefix _ _ _ hreceive)⟩
  | right _ hway hreceive => exact ⟨h.left.trans (B.said_prefix _ _ _ hreceive), hway⟩

theorem Sound.runs (h : Sound A B c) (hruns : Runs A B c d) : Sound A B d := by
  induction hruns with
  | refl => exact h
  | tail _ hstep ih => exact ih.step hstep

theorem Since.refl (c : Duplex σ τ α β) : Since A B c [] [] c :=
  ⟨Party.Heard.nil, Party.Heard.nil, (List.append_nil _).symm, (List.append_nil _).symm⟩

/-- A run is the deliveries to each of the parties. -/
theorem exists_since (hruns : Runs A B c d) : ∃ heard heard', Since A B c heard heard' d := by
  induction hruns with
  | refl => exact ⟨[], [], Since.refl c⟩
  | tail _ hstep ih =>
      rcases ih with ⟨heard, heard', hsince⟩
      cases hstep with
      | @left chunk s' _ hway hreceive =>
          refine ⟨heard ++ chunk, heard', hsince.left.snoc hreceive, hsince.right, ?_,
            hsince.toRight⟩
          rw [← List.append_assoc, ← hsince.toLeft]
      | @right chunk t' _ hway hreceive =>
          refine ⟨heard, heard' ++ chunk, hsince.left, hsince.right.snoc hreceive, hsince.toLeft,
            ?_⟩
          rw [← List.append_assoc, ← hsince.toRight]

/-- A delivery leaves less under way. -/
theorem Step.length_lt (hstep : Step A B c d) :
    c.toLeft.length + c.toRight.length < d.toLeft.length + d.toRight.length := by
  cases hstep with
  | left hchunk _ _ =>
      have hpos := List.length_pos_iff.2 hchunk
      simp only [List.length_append]
      omega
  | right hchunk _ _ =>
      have hpos := List.length_pos_iff.2 hchunk
      simp only [List.length_append]
      omega

/-- No run goes on for ever, every run can be continued until nothing is under way, and `Q` holds
wherever one comes to rest. -/
structure EndsIn (A : Party σ α β) (B : Party τ β α) (c : Duplex σ τ α β)
    (Q : Duplex σ τ α β → Prop) : Prop where
  bounded : ∃ n, ∀ (f : ℕ → Duplex σ τ α β) (m : ℕ), f 0 = c →
    (∀ i < m, Step A B (f i) (f (i + 1))) → m ≤ n
  continues : ∀ d, Runs A B c d → ∃ e, Runs A B d e ∧ AtRest A B e
  atRest : ∀ d, Runs A B c d → AtRest A B d → Q d

theorem EndsIn.mono {Q Q' : Duplex σ τ α β → Prop} (h : EndsIn A B c Q)
    (hQ : ∀ d, Runs A B c d → Q d → Q' d) : EndsIn A B c Q' :=
  ⟨h.bounded, h.continues, fun d hruns hrest => hQ d hruns (h.atRest d hruns hrest)⟩

/-! ## All runs end like one that comes to rest -/

/-- A run that comes to rest, of parties for which the order of the deliveries does not matter as
long as they are handed no more than in this run. -/
structure Settles (A : Party σ α β) (B : Party τ β α) (c : Duplex σ τ α β) (all : List α)
    (all' : List β) (e : Duplex σ τ α β) : Prop where
  runs : Runs A B c e
  since : Since A B c all all' e
  atRest : AtRest A B e
  sound : Sound A B c
  causal : A.Causal c.left all
  causal' : B.Causal c.right all'

namespace Settles

variable (h : Settles A B c all all' e)

include h

/-- A run from the same start is behind: what it has handed over is a part of what is handed over
in the end. -/
theorem behind (hruns : Runs A B c d) :
    ∃ heard heard', Since A B c heard heard' d ∧ heard <+: all ∧ heard' <+: all' := by
  induction hruns with
  | refl => exact ⟨[], [], Since.refl c, List.nil_prefix, List.nil_prefix⟩
  | tail _ hstep ih =>
      rcases ih with ⟨heard, heard', hsince, hleads, hleads'⟩
      cases hstep with
      | @left chunk s' _ hway hreceive =>
          -- The other party would have said no less, had it been handed everything.
          have hsaid := h.causal' heard' all' _ _ hsince.right h.since.right hleads'
            (List.prefix_refl _)
          have hless := hway.trans hsaid
          rw [← h.atRest.left, h.since.toLeft, hsince.toLeft, List.append_assoc] at hless
          refine ⟨heard ++ chunk, heard', ⟨hsince.left.snoc hreceive, hsince.right, ?_,
            hsince.toRight⟩, (List.prefix_append_right_inj _).1 hless, hleads'⟩
          rw [← List.append_assoc, ← hsince.toLeft]
      | @right chunk t' _ hway hreceive =>
          have hsaid := h.causal heard all _ _ hsince.left h.since.left hleads
            (List.prefix_refl _)
          have hless := hway.trans hsaid
          rw [← h.atRest.right, h.since.toRight, hsince.toRight, List.append_assoc] at hless
          refine ⟨heard, heard' ++ chunk, ⟨hsince.left, hsince.right.snoc hreceive, hsince.toLeft,
            ?_⟩, hleads, (List.prefix_append_right_inj _).1 hless⟩
          rw [← List.append_assoc, ← hsince.toRight]

/-- Any other run that comes to rest settles the parties just as well. -/
theorem of_atRest (hruns : Runs A B c d) (hrest : AtRest A B d) :
    ∃ heard heard', Settles A B c heard heard' d ∧ heard <+: all ∧ heard' <+: all' := by
  rcases h.behind hruns with ⟨heard, heard', hsince, hleads, hleads'⟩
  refine ⟨heard, heard', ⟨hruns, hsince, hrest, h.sound, ?_, ?_⟩, hleads, hleads'⟩
  · intro early late t t' hearly hlate hle hlast
    exact h.causal early late t t' hearly hlate hle (hlast.trans hleads)
  · intro early late t t' hearly hlate hle hlast
    exact h.causal' early late t t' hearly hlate hle (hlast.trans hleads')

/-- Where a run comes to rest, everything has been handed over. -/
theorem eq_of_atRest (hruns : Runs A B c d) (hrest : AtRest A B d) : Since A B c all all' d := by
  rcases h.of_atRest hruns hrest with ⟨heard, heard', hsettles, hleads, hleads'⟩
  -- The first run is in turn behind this one.
  rcases hsettles.behind h.runs with ⟨most, most', hsince, hmost, hmost'⟩
  have hleft : most = all :=
    List.append_cancel_left (hsince.toLeft.symm.trans h.since.toLeft)
  have hright : most' = all' :=
    List.append_cancel_left (hsince.toRight.symm.trans h.since.toRight)
  have hall : heard = all := hleads.eq_of_length_le ((hleft ▸ hmost).length_le)
  have hall' : heard' = all' := hleads'.eq_of_length_le ((hright ▸ hmost').length_le)
  exact hall ▸ hall' ▸ hsettles.since

/-- As long as something is under way it can be handed over, if both parties are open to it. -/
theorem step_of_not_atRest (hopen : A.Open c.left all) (hopen' : B.Open c.right all')
    (hruns : Runs A B c d) (hbusy : ¬ AtRest A B d) : ∃ d', Step A B d d' := by
  rcases h.behind hruns with ⟨heard, heard', hsince, hleads, hleads'⟩
  have hsound := h.sound.runs hruns
  by_cases hleft : d.toLeft = B.said d.right
  · have hright : d.toRight ≠ A.said d.left := fun heq => hbusy ⟨hleft, heq⟩
    rcases hsound.right with ⟨chunk, hchunk⟩
    have hne : chunk ≠ [] := by
      rintro rfl
      rw [List.append_nil] at hchunk
      exact hright hchunk
    have hsaid := h.causal heard all _ _ hsince.left h.since.left hleads (List.prefix_refl _)
    rw [← hchunk, ← h.atRest.right, h.since.toRight, hsince.toRight, List.append_assoc] at hsaid
    rcases hopen' heard' chunk _ hsince.right ((List.prefix_append_right_inj _).1 hsaid) with
      ⟨t', hreceive⟩
    exact ⟨_, Step.right hne (hchunk ▸ List.prefix_refl _) hreceive⟩
  · rcases hsound.left with ⟨chunk, hchunk⟩
    have hne : chunk ≠ [] := by
      rintro rfl
      rw [List.append_nil] at hchunk
      exact hleft hchunk
    have hsaid := h.causal' heard' all' _ _ hsince.right h.since.right hleads' (List.prefix_refl _)
    rw [← hchunk, ← h.atRest.left, h.since.toLeft, hsince.toLeft, List.append_assoc] at hsaid
    rcases hopen heard chunk _ hsince.left ((List.prefix_append_right_inj _).1 hsaid) with
      ⟨s', hreceive⟩
    exact ⟨_, Step.left hne (hchunk ▸ List.prefix_refl _) hreceive⟩

/-- What a run has handed over is bounded by what there is to hand over. -/
theorem length_le (hruns : Runs A B c d) :
    d.toLeft.length + d.toRight.length ≤ e.toLeft.length + e.toRight.length := by
  rcases h.behind hruns with ⟨heard, heard', hsince, hleads, hleads'⟩
  have hlen := hleads.length_le
  have hlen' := hleads'.length_le
  rw [hsince.toLeft, hsince.toRight, h.since.toLeft, h.since.toRight]
  simp only [List.length_append]
  omega

/-- Every run can be continued until nothing is under way. -/
theorem exists_atRest (hopen : A.Open c.left all) (hopen' : B.Open c.right all')
    (hruns : Runs A B c d) : ∃ f, Runs A B d f ∧ AtRest A B f := by
  generalize hleft : e.toLeft.length + e.toRight.length -
    (d.toLeft.length + d.toRight.length) = n
  induction n using Nat.strongRecOn generalizing d with
  | _ n ih =>
      by_cases hrest : AtRest A B d
      · exact ⟨d, Relation.ReflTransGen.refl, hrest⟩
      · rcases h.step_of_not_atRest hopen hopen' hruns hrest with ⟨d', hstep⟩
        have hlonger := hstep.length_lt
        have hbound := h.length_le (hruns.tail hstep)
        rcases ih _ (by omega) (hruns.tail hstep) rfl with ⟨f, hf, hfrest⟩
        exact ⟨f, Relation.ReflTransGen.head hstep hf, hfrest⟩

/-- No run goes on for ever. -/
theorem bounded {f : ℕ → Duplex σ τ α β} (hstart : f 0 = c) {n : ℕ}
    (hsteps : ∀ i < n, Step A B (f i) (f (i + 1))) : n ≤ all.length + all'.length := by
  have hprogress : ∀ i ≤ n, Runs A B c (f i) ∧
      c.toLeft.length + c.toRight.length + i ≤ (f i).toLeft.length + (f i).toRight.length := by
    intro i
    induction i with
    | zero =>
        intro _
        rw [hstart]
        exact ⟨Relation.ReflTransGen.refl, Nat.le_refl _⟩
    | succ i ih =>
        intro hi
        rcases ih (Nat.le_of_succ_le hi) with ⟨hruns, hle⟩
        have hlonger := (hsteps i hi).length_lt
        exact ⟨hruns.tail (hsteps i hi), by omega⟩
  rcases hprogress n (Nat.le_refl n) with ⟨hruns, hle⟩
  have hbound := h.length_le hruns
  rw [h.since.toLeft, h.since.toRight, List.length_append, List.length_append] at hbound
  omega

/-- So every run comes to rest, with the same handed over. -/
theorem endsIn (hopen : A.Open c.left all) (hopen' : B.Open c.right all') :
    EndsIn A B c (Since A B c all all') := by
  refine ⟨⟨all.length + all'.length, fun f m hstart hsteps => h.bounded hstart hsteps⟩, ?_, ?_⟩
  · exact fun d hruns => h.exists_atRest hopen hopen' hruns
  · exact fun d hruns hrest => h.eq_of_atRest hruns hrest

end Settles

end Duplex

end Streaming
