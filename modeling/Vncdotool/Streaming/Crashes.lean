import Mathlib.Logic.Function.Basic
import Vncdotool.Streaming.Effects

/-!
# Crashes — programs that are killed between two effects

An effect on the outside world is done, or raises, or the program is killed in the middle of it.
The fates of the effects to come are part of the world, so that a program is a function of them.
`Withstands` is the triple of a program under every fate; it has a third postcondition, for what a
killed program leaves behind, since no handler runs then.

`install` is the pattern by which a file comes into being whole: it is built beside its place, and
moved there.
-/

namespace Streaming

variable {ς ε γ α β : Type}

/-! ## Programs -/

/-- How an effect goes; one that is not done may leave debris. -/
inductive Fate (ε γ : Type)
  | done
  | raises (e : ε) (debris : γ)
  | killed (debris : γ)
  deriving DecidableEq, Repr

/-- Why a program does not return. -/
inductive Halt (ε : Type)
  | raised (e : ε)
  | killed
  deriving DecidableEq, Repr

/-- The outside world, with the fates of the effects to come; those beyond the list are done. -/
structure World (ς ε γ : Type) where
  state : ς
  fates : List (Fate ε γ) := []

/-- The programs on a world. -/
abbrev Crashing (ς ε γ : Type) := EStateM (Halt ε) (World ς ε γ)

/-- `apply` is what the effect does, `spoil` what becomes of the state if it is not done. -/
def perform (apply : ς → ς) (spoil : γ → ς → ς) : Crashing ς ε γ Unit := fun w =>
  match w.fates with
  -- Nothing goes wrong any more.
  | [] => .ok () { state := apply w.state }
  | .done :: fates => .ok () { state := apply w.state, fates := fates }
  | .raises e debris :: fates =>
      .error (.raised e) { state := spoil debris w.state, fates := fates }
  | .killed debris :: fates => .error .killed { state := spoil debris w.state, fates := fates }

/-- The state, which is read without an effect. -/
def reading (f : ς → α) : Crashing ς ε γ α := do
  return f (← get).state

/-- What is computed without an effect, and may raise. -/
def computing (x : Except ε α) : Crashing ς ε γ α :=
  match x with
  | .ok a => pure a
  | .error e => throw (.raised e)

/-- `try … except BaseException`; a program that is killed handles nothing any more. -/
def handling (x : Crashing ς ε γ α) (handler : ε → Crashing ς ε γ α) : Crashing ς ε γ α :=
  attempt x pure fun halt =>
    match halt with
    | .raised e => handler e
    | .killed => throw .killed

/-- `with`: however `x` ends, `close` is run, unless the program is killed. -/
def closing (x : Crashing ς ε γ Unit) (close : Crashing ς ε γ Unit) : Crashing ς ε γ Unit := do
  handling x fun e => do
    close
    throw (.raised e)
  close

/-! ## What a program withstands -/

/-- From `s`, whatever the fates: `x` returns with `Q`, raises with `E`, or is killed with `C`. -/
def Withstands (x : Crashing ς ε γ α) (s : ς) (Q : α → ς → Prop) (E : ε → ς → Prop)
    (C : ς → Prop) : Prop :=
  ∀ fates, Ensures x { state := s, fates := fates } (fun a w => Q a w.state) fun halt w =>
    match halt with
    | .raised e => E e w.state
    | .killed => C w.state

section Withstands

variable {x : Crashing ς ε γ α} {f : α → Crashing ς ε γ β} {s s' : ς} {a : α} {e : ε}
  {Q Q' : α → ς → Prop} {R : β → ς → Prop} {E E' : ε → ς → Prop} {C C' : ς → Prop}

theorem Withstands.mono (h : Withstands x s Q E C) (hQ : ∀ a s', Q a s' → Q' a s')
    (hE : ∀ e s', E e s' → E' e s') (hC : ∀ s', C s' → C' s') : Withstands x s Q' E' C' := by
  intro fates
  refine Ensures.mono (h fates) (fun a w => hQ a w.state) fun halt w => ?_
  cases halt with
  | raised e => exact hE e w.state
  | killed => exact hC w.state

theorem withstands_pure (h : Q a s) : Withstands (pure a : Crashing ς ε γ α) s Q E C :=
  fun _ => ensures_pure.2 h

theorem withstands_raise (h : E e s) :
    Withstands (throw (.raised e) : Crashing ς ε γ α) s Q E C :=
  fun _ => ensures_throw.2 h

theorem Withstands.bind (hx : Withstands x s Q E C)
    (hf : ∀ a s', Q a s' → Withstands (f a) s' R E C) : Withstands (x >>= f) s R E C := by
  intro fates
  refine ensures_bind.2 (Ensures.mono (hx fates) (fun a w hQ => ?_) fun _ _ => id)
  exact hf a w.state hQ w.fates

theorem withstands_perform {apply : ς → ς} {spoil : γ → ς → ς} {Q : Unit → ς → Prop}
    (hdone : Q () (apply s)) (hraised : ∀ e debris, E e (spoil debris s))
    (hkilled : ∀ debris, C (spoil debris s)) : Withstands (perform apply spoil) s Q E C := by
  intro fates
  cases fates with
  | nil => exact hdone
  | cons fate fates =>
      cases fate with
      | done => exact hdone
      | raises e debris => exact hraised e debris
      | killed debris => exact hkilled debris

theorem withstands_reading {g : ς → α} (h : Q (g s) s) :
    Withstands (reading g : Crashing ς ε γ α) s Q E C :=
  fun _ => h

theorem withstands_computing {y : Except ε α} (hok : ∀ a, y = .ok a → Q a s)
    (herror : ∀ e, y = .error e → E e s) :
    Withstands (computing y : Crashing ς ε γ α) s Q E C := by
  cases y with
  | ok a => exact withstands_pure (hok a rfl)
  | error e => exact withstands_raise (herror e rfl)

theorem Withstands.handling {handler : ε → Crashing ς ε γ α} (hx : Withstands x s Q E' C)
    (hhandler : ∀ e s', E' e s' → Withstands (handler e) s' Q E C) :
    Withstands (handling x handler) s Q E C := by
  intro fates
  refine ensures_attempt.2 (Ensures.mono (hx fates) (fun _ _ => id) fun halt w hE => ?_)
  cases halt with
  | raised e => exact hhandler e w.state hE w.fates
  -- A program that is killed is past all its handlers.
  | killed => exact hE

/-- Both ways of leaving a `with` go through `close`. -/
theorem Withstands.closing {x close : Crashing ς ε γ Unit} {Q R : Unit → ς → Prop}
    (hx : Withstands x s Q E' C) (hreturned : ∀ s', Q () s' → Withstands close s' R E C)
    (hraised : ∀ e s', E' e s' → Withstands close s' (fun _ => E e) E C) :
    Withstands (closing x close) s R E C := by
  refine Withstands.bind (Withstands.handling hx fun e s' hE => ?_) fun _ => hreturned
  exact (hraised e s' hE).bind fun _ _ => withstands_raise

end Withstands

/-! ## Files -/

/-- What the paths hold. -/
abbrev Disk (π κ : Type) := π → Option κ

/-- Nothing differs but what is at `path`. -/
def SameBut {π κ : Type} (path : π) (d d' : Disk π κ) : Prop :=
  ∀ other, other ≠ path → d' other = d other

section Files

variable {π κ : Type} {d d' : Disk π κ} {part path : π}

theorem sameBut_refl : SameBut path d d :=
  fun _ _ => rfl

variable [DecidableEq π]

/-- An effect on what is at `path`; if it is not done, anything may be there. -/
def alter (path : π) (f : Option κ → Option κ) : Crashing (Disk π κ) ε (Option κ) Unit :=
  perform (fun d => Function.update d path (f (d path))) fun debris d =>
    Function.update d path debris

/-- `os.replace(src, dst)`, which is atomic. -/
def renameOver (src dst : π) : Crashing (Disk π κ) ε (Option κ) Unit :=
  perform (fun d => Function.update (Function.update d src none) dst (d src)) fun _ d => d

/-- `os.unlink(path)`. -/
def unlink (path : π) : Crashing (Disk π κ) ε (Option κ) Unit :=
  perform (fun d => Function.update d path none) fun _ d => d

/-- A file is built at `part` and moved to `path`; what has been built is removed if that raises. -/
def install (part path : π) (build : Crashing (Disk π κ) ε (Option κ) Unit) :
    Crashing (Disk π κ) ε (Option κ) Unit :=
  handling
    (do
      build
      renameOver part path)
    fun e => do
      if ← reading fun d => (d part).isSome then unlink part
      throw (.raised e)

theorem SameBut.update (h : SameBut path d d') (contents : Option κ) :
    SameBut path d (Function.update d' path contents) :=
  fun other hne => (Function.update_of_ne hne _ _).trans (h other hne)

/-- What is done at `path` is no one else's concern. -/
theorem SameBut.withstands_alter (h : SameBut path d d') (f : Option κ → Option κ) :
    Withstands (alter path f : Crashing (Disk π κ) ε (Option κ) Unit) d'
      (fun _ d'' => SameBut path d d'' ∧ d'' path = f (d' path)) (fun _ => SameBut path d)
      (SameBut path d) := by
  refine withstands_perform ⟨h.update _, ?_⟩ (fun _ debris => h.update debris) h.update
  exact Function.update_self _ _ _

/-- A file that is installed is there whole, or not at all, whatever happens on the way. -/
theorem withstands_install {build : Crashing (Disk π κ) ε (Option κ) Unit} {contents : κ}
    (hbuild : Withstands build d (fun _ d' => SameBut part d d' ∧ d' part = some contents)
      (fun _ => SameBut part d) (SameBut part d)) :
    Withstands (install part path build) d
      (fun _ d' => d' = Function.update (Function.update d part none) path (some contents))
      (fun _ => SameBut part d) (SameBut part d) := by
  -- Until the rename only `part` is touched, and the rename is done or has no effect at all.
  have hmoved : Withstands (build >>= fun _ => renameOver part path) d
      (fun _ d' => d' = Function.update (Function.update d part none) path (some contents))
      (fun _ => SameBut part d) (SameBut part d) := by
    refine hbuild.bind ?_
    rintro _ d' ⟨hsame, hpart⟩
    refine withstands_perform ?_ (fun _ _ => hsame) fun _ => hsame
    rw [hpart]
    funext other
    by_cases hpath : other = path
    · rw [hpath, Function.update_self, Function.update_self]
    · rw [Function.update_of_ne hpath, Function.update_of_ne hpath]
      by_cases hpart' : other = part
      · rw [hpart', Function.update_self, Function.update_self]
      · rw [Function.update_of_ne hpart', Function.update_of_ne hpart']
        exact hsame other hpart'
  -- The handler may fail to remove what was built; the exception goes on in either case.
  refine hmoved.handling fun e d' hsame => ?_
  have hread : Withstands
      (reading (fun d => (d part).isSome) : Crashing (Disk π κ) ε (Option κ) Bool) d'
      (fun _ d'' => d'' = d') (fun _ => SameBut part d) (SameBut part d) :=
    withstands_reading rfl
  refine hread.bind ?_
  rintro found d'' rfl
  have hunlink : Withstands (unlink part : Crashing (Disk π κ) ε (Option κ) Unit) d''
      (fun _ => SameBut part d) (fun _ => SameBut part d) (SameBut part d) :=
    withstands_perform (hsame.update none) (fun _ _ => hsame) fun _ => hsame
  cases found with
  | true => exact hunlink.bind fun _ _ hleft => withstands_raise hleft
  | false => exact withstands_raise hsame

end Files

end Streaming
