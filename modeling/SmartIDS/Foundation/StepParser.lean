import Mathlib.Data.List.Basic
import Mathlib.Data.List.TakeWhile
set_option autoImplicit false

/-!
# Foundation: step parsers and the grammars they read

A grammar says which texts stand for which values.  A step parser reads a phrase at
the front of a text and hands back the rest.  It reads a grammar (`Reads`) if it
accepts phrases only, and accepts every phrase whose continuation does not prolong
it.  The continuations are a parameter: behind a word they must not go on with a
letter of the word, behind an optional part they must not begin with that part.
A grammar that is read is unambiguous (`Reads.unique`).
-/

namespace SmartIDS.Foundation

/-- Which texts stand for which values. -/
abbrev Grammar (σ α : Type) : Type := List σ → α → Prop

/-- Reads a phrase and hands back what stands behind it. -/
abbrev Step (σ α : Type) : Type := List σ → Option (α × List σ)

variable {σ α β : Type}

namespace Grammar

/-- A run of characters of a class, with the value it stands for. -/
def run (q : σ → Bool) (f : List σ → Option α) : Grammar σ α := fun b x =>
  (∀ c ∈ b, q c = true) ∧ f b = some x

/-- A phrase behind a fixed text. -/
def after (l : List σ) (G : Grammar σ α) : Grammar σ α := fun b x => ∃ b', b = l ++ b' ∧ G b' x

/-- A phrase in front of a fixed text. -/
def before (G : Grammar σ α) (l : List σ) : Grammar σ α := fun b x => ∃ b', b = b' ++ l ∧ G b' x

/-- A phrase that stands for what `f` makes of its value. -/
def map (f : α → β) (G : Grammar σ α) : Grammar σ β := fun b y => ∃ x, G b x ∧ f x = y

/-- Two phrases one after the other. -/
def seq (G : Grammar σ α) (H : Grammar σ β) : Grammar σ (α × β) := fun b xy =>
  ∃ b₁ b₂, b = b₁ ++ b₂ ∧ G b₁ xy.1 ∧ H b₂ xy.2

/-- A phrase of either kind. -/
def or (G H : Grammar σ α) : Grammar σ α := fun b x => G b x ∨ H b x

/-- A phrase, or nothing, which stands for the default. -/
def optional (default : α) (G : Grammar σ α) : Grammar σ α := fun b x =>
  (b = [] ∧ x = default) ∨ G b x

/-- One phrase or more, with a separator between them. -/
inductive sepBy (G : Grammar σ α) (sep : List σ) : Grammar σ (List α)
  | single {b : List σ} {x : α} : G b x → sepBy G sep b [x]
  | cons {b b' : List σ} {x : α} {xs : List α} :
      G b x → sepBy G sep b' xs → sepBy G sep (b ++ (sep ++ b')) (x :: xs)

end Grammar

/-! ## The parsers -/

namespace Step

def run (q : σ → Bool) (f : List σ → Option α) : Step σ α := fun s =>
  (f (s.takeWhile q)).map fun x => (x, s.dropWhile q)

variable [BEq σ]

def after (l : List σ) (p : Step σ α) : Step σ α := fun s => (s.dropPrefix? l).bind p

def before (p : Step σ α) (l : List σ) : Step σ α := fun s => do
  let (x, r) ← p s
  let r ← r.dropPrefix? l
  return (x, r)

def map (f : α → β) (p : Step σ α) : Step σ β := fun s => (p s).map fun (x, r) => (f x, r)

def seq (p : Step σ α) (q : Step σ β) : Step σ (α × β) := fun s => do
  let (x, r) ← p s
  let (y, r) ← q r
  return ((x, y), r)

def or (p q : Step σ α) : Step σ α := fun s => (p s).or (q s)

def optional (default : α) (p : Step σ α) : Step σ α := fun s => (p s).or (some (default, s))

/-- At most as many phrases as there is fuel. -/
def sepByFuel (p : Step σ α) (sep : List σ) : ℕ → Step σ (List α)
  | 0, _ => none
  | fuel + 1, s => do
    let (x, r) ← p s
    match r.dropPrefix? sep with
    | none => return ([x], r)
    | some r =>
      let (xs, r) ← sepByFuel p sep fuel r
      return (x :: xs, r)

/-- A separator takes up some of the text, so the length of the text is fuel enough. -/
def sepBy (p : Step σ α) (sep : List σ) : Step σ (List α) := fun s =>
  sepByFuel p sep (s.length + 1) s

end Step

/-! ## Reading -/

/-- The parser accepts phrases only, and every phrase in front of such a continuation. -/
structure Reads (p : Step σ α) (G : Grammar σ α) (Follow : List σ → Prop) : Prop where
  sound : ∀ {s : List σ} {x : α} {r : List σ}, p s = some (x, r) → ∃ b, s = b ++ r ∧ G b x
  complete : ∀ {b : List σ} {x : α} {r : List σ}, G b x → Follow r → p (b ++ r) = some (x, r)

namespace Reads

variable {p : Step σ α} {q : Step σ β} {G : Grammar σ α} {H : Grammar σ β}
  {Follow Follow' : List σ → Prop}

theorem mono (h : Reads p G Follow) (hle : ∀ r, Follow' r → Follow r) : Reads p G Follow' :=
  ⟨h.sound, fun hphrase hr => h.complete hphrase (hle _ hr)⟩

/-- A text is a phrase for one value at most. -/
theorem unique (h : Reads p G Follow) (hnil : Follow []) {b : List σ} {x y : α}
    (hx : G b x) (hy : G b y) : x = y := by
  have hreads := (h.complete hx hnil).symm.trans (h.complete hy hnil)
  exact congrArg Prod.fst (Option.some.inj hreads)

/-- The whole text is a phrase exactly if reading it leaves nothing. -/
theorem eq_some_iff (h : Reads p G Follow) (hnil : Follow []) {s : List σ} {x : α} :
    p s = some (x, []) ↔ G s x := by
  constructor
  · intro hs
    obtain ⟨b, hb, hphrase⟩ := h.sound hs
    rw [List.append_nil] at hb
    exact hb ▸ hphrase
  · intro hphrase
    have hs := h.complete hphrase hnil
    rwa [List.append_nil] at hs

/-- A run ends where the class does. -/
theorem run (q : σ → Bool) (f : List σ → Option α) :
    Reads (Step.run q f) (Grammar.run q f) fun r => ∀ c ∈ r.head?, q c = false where
  sound {s x r} hs := by
    obtain ⟨y, hy, heq⟩ := Option.map_eq_some_iff.mp hs
    obtain ⟨rfl, rfl⟩ := Prod.mk.inj heq
    exact ⟨_, List.takeWhile_append_dropWhile.symm, fun c hc => List.mem_takeWhile_imp hc, hy⟩
  complete {b x r} hphrase hr := by
    obtain ⟨hb, hf⟩ := hphrase
    have hnone : r.takeWhile q = [] ∧ r.dropWhile q = r := by
      cases r with
      | nil => exact ⟨rfl, rfl⟩
      | cons c r =>
        have hc : ¬ q c = true := Bool.eq_false_iff.mp (hr c rfl)
        exact ⟨List.takeWhile_cons_of_neg hc, List.dropWhile_cons_of_neg hc⟩
    unfold Step.run
    rw [List.takeWhile_append_of_pos hb, List.dropWhile_append_of_pos hb, hnone.1, hnone.2,
      List.append_nil, hf]
    rfl

theorem map (f : α → β) (h : Reads p G Follow) : Reads (Step.map f p) (Grammar.map f G) Follow where
  sound {s y r} hs := by
    obtain ⟨⟨x, rest⟩, hp, heq⟩ := Option.map_eq_some_iff.mp hs
    obtain ⟨rfl, rfl⟩ := Prod.mk.inj heq
    obtain ⟨b, hb, hphrase⟩ := h.sound hp
    exact ⟨b, hb, x, hphrase, rfl⟩
  complete {b y r} hphrase hr := by
    obtain ⟨x, hx, rfl⟩ := hphrase
    unfold Step.map
    rw [h.complete hx hr]
    rfl

/-- The second phrase and what follows it must be a continuation of the first one. -/
theorem seq (h : Reads p G Follow) (h' : Reads q H Follow')
    (hfollow : ∀ b y r, H b y → Follow' r → Follow (b ++ r)) :
    Reads (Step.seq p q) (Grammar.seq G H) Follow' where
  sound {s xy r} hs := by
    obtain ⟨⟨x, rest⟩, hp, hs⟩ := Option.bind_eq_some_iff.mp hs
    obtain ⟨⟨y, r'⟩, hq, heq⟩ := Option.bind_eq_some_iff.mp hs
    obtain ⟨rfl, rfl⟩ := Prod.mk.inj (Option.some.inj heq)
    obtain ⟨b₁, rfl, hx⟩ := h.sound hp
    obtain ⟨b₂, rfl, hy⟩ := h'.sound hq
    exact ⟨b₁ ++ b₂, (List.append_assoc _ _ _).symm, b₁, b₂, rfl, hx, hy⟩
  complete {b xy r} hphrase hr := by
    obtain ⟨b₁, b₂, rfl, hx, hy⟩ := hphrase
    unfold Step.seq
    rw [List.append_assoc, h.complete hx (hfollow b₂ _ r hy hr)]
    simp only [Option.bind_eq_bind, Option.bind_some, h'.complete hy hr, Option.pure_def]

/-- A phrase of the second kind must not look like one of the first kind. -/
theorem or {p' : Step σ α} {G' : Grammar σ α} (h : Reads p G Follow) (h' : Reads p' G' Follow)
    (hapart : ∀ b x r, G' b x → p (b ++ r) = none) :
    Reads (Step.or p p') (Grammar.or G G') Follow where
  sound {s x r} hs := by
    rcases Option.or_eq_some_iff.mp hs with hp | ⟨-, hp'⟩
    · obtain ⟨b, hb, hphrase⟩ := h.sound hp
      exact ⟨b, hb, Or.inl hphrase⟩
    · obtain ⟨b, hb, hphrase⟩ := h'.sound hp'
      exact ⟨b, hb, Or.inr hphrase⟩
  complete {b x r} hphrase hr := by
    unfold Step.or
    rcases hphrase with hx | hx
    · rw [h.complete hx hr, Option.some_or]
    · rw [hapart b x r hx, Option.none_or, h'.complete hx hr]

/-- Where there is nothing, what follows must not begin like the phrase. -/
theorem optional (default : α) (h : Reads p G Follow) :
    Reads (Step.optional default p) (Grammar.optional default G)
      fun r => Follow r ∧ p r = none where
  sound {s x r} hs := by
    rcases Option.or_eq_some_iff.mp hs with hp | ⟨-, heq⟩
    · obtain ⟨b, hb, hphrase⟩ := h.sound hp
      exact ⟨b, hb, Or.inr hphrase⟩
    · obtain ⟨rfl, rfl⟩ := Prod.mk.inj (Option.some.inj heq)
      exact ⟨[], rfl, Or.inl ⟨rfl, rfl⟩⟩
  complete {b x r} hphrase hr := by
    unfold Step.optional
    rcases hphrase with ⟨rfl, rfl⟩ | hx
    · rw [List.nil_append, hr.2, Option.none_or]
    · rw [h.complete hx hr.1, Option.some_or]

variable [BEq σ] [LawfulBEq σ]

theorem dropPrefix?_iff {s l r : List σ} : s.dropPrefix? l = some r ↔ s = l ++ r := by
  rw [List.dropPrefix?_eq_some_iff]
  constructor
  · rintro ⟨l', rfl, hl⟩
    rw [eq_of_beq hl]
  · rintro rfl
    exact ⟨l, rfl, BEq.rfl⟩

theorem after (l : List σ) (h : Reads p G Follow) :
    Reads (Step.after l p) (Grammar.after l G) Follow where
  sound {s x r} hs := by
    obtain ⟨rest, hrest, hp⟩ := Option.bind_eq_some_iff.mp hs
    obtain ⟨b, rfl, hphrase⟩ := h.sound hp
    exact ⟨l ++ b, by rw [dropPrefix?_iff.mp hrest, List.append_assoc], b, rfl, hphrase⟩
  complete {b x r} hphrase hr := by
    obtain ⟨b', rfl, hb⟩ := hphrase
    unfold Step.after
    rw [dropPrefix?_iff.mpr (List.append_assoc l b' r)]
    exact h.complete hb hr

theorem before (h : Reads p G Follow) {l : List σ} (hl : ∀ r, Follow (l ++ r)) :
    Reads (Step.before p l) (Grammar.before G l) fun _ => True where
  sound {s x r} hs := by
    obtain ⟨⟨y, rest⟩, hp, hs⟩ := Option.bind_eq_some_iff.mp hs
    obtain ⟨r', hr', heq⟩ := Option.bind_eq_some_iff.mp hs
    obtain ⟨rfl, rfl⟩ := Prod.mk.inj (Option.some.inj heq)
    obtain ⟨b, rfl, hphrase⟩ := h.sound hp
    exact ⟨b ++ l, by rw [dropPrefix?_iff.mp hr', List.append_assoc], b, rfl, hphrase⟩
  complete {b x r} hphrase _ := by
    obtain ⟨b', rfl, hb⟩ := hphrase
    unfold Step.before
    rw [List.append_assoc, h.complete hb (hl r)]
    simp only [Option.bind_eq_bind, Option.bind_some, dropPrefix?_iff.mpr rfl, Option.pure_def]

/-! ## Lists -/

theorem sound_sepByFuel (h : Reads p G Follow) (sep : List σ) {fuel : ℕ} {s : List σ}
    {xs : List α} {r : List σ} (hs : Step.sepByFuel p sep fuel s = some (xs, r)) :
    ∃ b, s = b ++ r ∧ Grammar.sepBy G sep b xs := by
  induction fuel generalizing s xs r with
  | zero => exact absurd hs (by simp [Step.sepByFuel])
  | succ fuel ih =>
    unfold Step.sepByFuel at hs
    obtain ⟨⟨x, rest⟩, hp, htail⟩ := Option.bind_eq_some_iff.mp hs
    obtain ⟨b, rfl, hphrase⟩ := h.sound hp
    cases hsep : rest.dropPrefix? sep with
    | none =>
      simp only [hsep] at htail
      obtain ⟨rfl, rfl⟩ := Prod.mk.inj (Option.some.inj htail)
      exact ⟨b, rfl, .single hphrase⟩
    | some rest' =>
      simp only [hsep] at htail
      obtain ⟨⟨ys, r'⟩, hrest, heq⟩ := Option.bind_eq_some_iff.mp htail
      obtain ⟨rfl, rfl⟩ := Prod.mk.inj (Option.some.inj heq)
      obtain ⟨b', rfl, hphrases⟩ := ih hrest
      rw [dropPrefix?_iff.mp hsep]
      exact ⟨b ++ (sep ++ b'), by simp only [List.append_assoc], .cons hphrase hphrases⟩

theorem complete_sepByFuel (h : Reads p G Follow) {sep : List σ} (hsep : sep ≠ [])
    (hfollow : ∀ r, Follow (sep ++ r)) {b : List σ} {xs : List α} {r : List σ}
    (hphrases : Grammar.sepBy G sep b xs) (hr : Follow r) (hend : r.dropPrefix? sep = none)
    {fuel : ℕ} (hfuel : b.length < fuel) :
    Step.sepByFuel p sep fuel (b ++ r) = some (xs, r) := by
  induction hphrases generalizing fuel with
  | single hphrase =>
    obtain ⟨fuel, rfl⟩ := Nat.exists_eq_succ_of_ne_zero (by omega : fuel ≠ 0)
    unfold Step.sepByFuel
    simp only [h.complete hphrase hr, hend, Option.bind_eq_bind, Option.bind_some, Option.pure_def]
  | @cons b b' x xs hphrase hphrases ih =>
    obtain ⟨fuel, rfl⟩ := Nat.exists_eq_succ_of_ne_zero (by omega : fuel ≠ 0)
    have hlength := List.length_pos_iff.mpr hsep
    rw [List.length_append, List.length_append] at hfuel
    have hrest := @ih fuel (by omega)
    have hhead := h.complete hphrase (hfollow (b' ++ r))
    unfold Step.sepByFuel
    rw [List.append_assoc, List.append_assoc, hhead]
    simp only [Option.bind_eq_bind, Option.bind_some, dropPrefix?_iff.mpr rfl, hrest,
      Option.pure_def]

/-- The last phrase of a list must not be followed by a separator. -/
theorem sepBy (h : Reads p G Follow) {sep : List σ} (hsep : sep ≠ [])
    (hfollow : ∀ r, Follow (sep ++ r)) :
    Reads (Step.sepBy p sep) (Grammar.sepBy G sep)
      fun r => Follow r ∧ r.dropPrefix? sep = none where
  sound hs := h.sound_sepByFuel sep hs
  complete hphrases hr := by
    refine h.complete_sepByFuel hsep hfollow hphrases hr.1 hr.2 ?_
    rw [List.length_append]
    omega

end Reads

end SmartIDS.Foundation
