import SmartIDS.Foundation.StepParser
import SmartIDS.Python.IpAddressText
set_option autoImplicit false

/-!
# PacketCapture: the grammar of a capture filter

A filter is `ip`, then the terms of which one has to match, in parentheses, then
those of which none may match.  Either group may be missing.  The parser of this
module reads the grammar, so that a text is at most one filter; what a filter lets
through is told by its expression.
-/

namespace SmartIDS.PacketCapture

open SmartIDS.Foundation SmartIDS.Python

/-- `host <address>` or `port <number>`. -/
inductive FilterTerm where
  | host (address : String)
  | port (number : ℕ)
  deriving DecidableEq

/-- The terms of the two groups. -/
structure CaptureFilter where
  watch : List FilterTerm
  exclude : List FilterTerm
  deriving DecidableEq

namespace CaptureFilter

/-! ## The grammar -/

/-- An address, of one character at least. -/
def addressText (b : List Char) : Option String := if b = [] then none else some (String.ofList b)

/-- A port, without leading zeros. -/
def portNumber (b : List Char) : Option ℕ :=
  let n := Nat.ofDigitChars 10 b 0
  if 0 < n ∧ n ≤ 65535 ∧ (toString n).toList = b then some n else none

/-- `T = host <address> | port <1..65535>`. -/
def term : Grammar Char FilterTerm :=
  .or (.map .host (.after "host ".toList (.run IPAddress.isAddressChar addressText)))
    (.map .port (.after "port ".toList (.run Char.isDigit portNumber)))

/-- `[<opening> T or ... or T)]`. -/
def clause (opening : List Char) : Grammar Char (List FilterTerm) :=
  .optional [] (.after opening (.before (.sepBy term " or ".toList) [')']))

/-- `ip [and (T or ... or T)] [and not (T or ... or T)]`. -/
def sentence : Grammar Char CaptureFilter :=
  .map (fun (watch, exclude) => ⟨watch, exclude⟩)
    (.seq (.after "ip".toList (clause " and (".toList)) (clause " and not (".toList))

/-! ## The parser -/

def termStep : Step Char FilterTerm :=
  .or (.map .host (.after "host ".toList (.run IPAddress.isAddressChar addressText)))
    (.map .port (.after "port ".toList (.run Char.isDigit portNumber)))

def clauseBody (opening : List Char) : Step Char (List FilterTerm) :=
  .after opening (.before (.sepBy termStep " or ".toList) [')'])

def clauseStep (opening : List Char) : Step Char (List FilterTerm) :=
  .optional [] (clauseBody opening)

def sentenceStep : Step Char CaptureFilter :=
  .map (fun (watch, exclude) => ⟨watch, exclude⟩)
    (.seq (.after "ip".toList (clauseStep " and (".toList)) (clauseStep " and not (".toList))

/-- A continuation that does not prolong a term. -/
def EndsTerm (r : List Char) : Prop := ∀ c ∈ r.head?, IPAddress.isAddressChar c = false

theorem isAddressChar_of_isDigit {c : Char} (h : c.isDigit = true) :
    IPAddress.isAddressChar c = true := by
  unfold Char.isDigit at h
  rw [Bool.and_eq_true, decide_eq_true_eq, decide_eq_true_eq] at h
  have hrange : '0' ≤ c ∧ c ≤ '9' := h
  refine IPAddress.isAddressChar_of_isAsciiDigit ?_
  unfold IPAddress.isAsciiDigit
  rw [decide_eq_true hrange.1, decide_eq_true hrange.2]
  rfl

theorem EndsTerm.not_isDigit {r : List Char} (h : EndsTerm r) : ∀ c ∈ r.head?, c.isDigit = false := by
  intro c hc
  refine Bool.eq_false_iff.mpr fun hdigit => ?_
  exact absurd ((h c hc).symm.trans (isAddressChar_of_isDigit hdigit)) (by decide)

theorem reads_term : Reads termStep term EndsTerm := by
  have hhost := ((Reads.run IPAddress.isAddressChar addressText).after "host ".toList).map
    FilterTerm.host
  have hport := (((Reads.run Char.isDigit portNumber).after "port ".toList).map
    FilterTerm.port).mono fun _ => EndsTerm.not_isDigit
  refine hhost.or hport ?_
  rintro b t r ⟨n, ⟨b', rfl, -⟩, rfl⟩
  rfl

theorem reads_clauseBody (opening : List Char) :
    Reads (clauseBody opening) (.after opening (.before (.sepBy term " or ".toList) [')']))
      fun _ => True := by
  have hor : ∀ r, EndsTerm (" or ".toList ++ r) := by
    intro r c hc
    obtain rfl : ' ' = c := Option.some.inj hc
    decide
  have hlist := reads_term.sepBy (by decide) hor
  refine (hlist.before fun r => ⟨fun c hc => ?_, rfl⟩).after opening
  obtain rfl : ')' = c := Option.some.inj hc
  decide

/-- Where a group is missing, the text must not go on like one. -/
theorem reads_clause (opening : List Char) :
    Reads (clauseStep opening) (clause opening) fun r => clauseBody opening r = none :=
  ((reads_clauseBody opening).optional []).mono fun _ hr => ⟨trivial, hr⟩

theorem reads_sentence : Reads sentenceStep sentence (· = []) := by
  have hwatch := (reads_clause " and (".toList).after "ip".toList
  have hexclude : Reads (clauseStep " and not (".toList) (clause " and not (".toList) (· = []) :=
    (reads_clause _).mono fun r hr => by rw [hr]; rfl
  refine (hwatch.seq hexclude ?_).map _
  rintro b ts r (⟨rfl, -⟩ | ⟨b', rfl, -⟩) rfl
  · rfl
  · rfl

/-- The filter a text is. -/
def parse (text : String) : Option CaptureFilter :=
  match sentenceStep text.toList with
  | some (f, []) => some f
  | _ => none

theorem parse_eq_some_iff {text : String} {f : CaptureFilter} :
    parse text = some f ↔ sentence text.toList f := by
  rw [← reads_sentence.eq_some_iff rfl]
  unfold parse
  split
  · next g hg => rw [hg, Option.some.injEq, Option.some.injEq, Prod.mk.injEq, and_iff_left rfl]
  · next hnone => exact ⟨fun h => absurd h (by simp), fun h => absurd h (hnone f)⟩

end CaptureFilter

/-! ## What a filter lets through -/

/-- A captured packet, as far as a filter looks at it. -/
structure Frame where
  isIp : Bool
  /-- The source and the destination. -/
  addresses : List IPAddress
  ports : List ℕ

def FilterTerm.holds (frame : Frame) : FilterTerm → Bool
  | .host address => frame.addresses.any fun ip => ipAddress address == some ip
  | .port number => frame.ports.contains number

/-- The expression a filter is compiled from. -/
inductive FilterExpr where
  | ip
  | term (t : FilterTerm)
  | and (e e' : FilterExpr)
  | or (e e' : FilterExpr)
  | not (e : FilterExpr)

def FilterExpr.holds (frame : Frame) : FilterExpr → Bool
  | .ip => frame.isIp
  | .term t => t.holds frame
  | .and e e' => e.holds frame && e'.holds frame
  | .or e e' => e.holds frame || e'.holds frame
  | .not e => !e.holds frame

/-- `T or ... or T`, from the left. -/
def FilterExpr.anyOf (t : FilterTerm) (ts : List FilterTerm) : FilterExpr :=
  ts.foldl (fun e u => .or e (.term u)) (.term t)

theorem FilterExpr.holds_anyOf (frame : Frame) (t : FilterTerm) (ts : List FilterTerm) :
    (FilterExpr.anyOf t ts).holds frame = (t :: ts).any (·.holds frame) := by
  have hfold : ∀ (us : List FilterTerm) (e : FilterExpr),
      (us.foldl (fun e u => FilterExpr.or e (.term u)) e).holds frame =
        (e.holds frame || us.any (·.holds frame)) := by
    intro us
    induction us with
    | nil => exact fun e => (Bool.or_false _).symm
    | cons u us ih =>
      intro e
      rw [List.foldl_cons, ih, List.any_cons, ← Bool.or_assoc]
      rfl
  exact hfold ts (.term t)

namespace CaptureFilter

/-- The groups in their parentheses. -/
def expr (f : CaptureFilter) : FilterExpr :=
  let watched : FilterExpr :=
    match f.watch with
    | [] => .ip
    | t :: ts => .and .ip (.anyOf t ts)
  match f.exclude with
  | [] => watched
  | t :: ts => .and watched (.not (.anyOf t ts))

theorem holds_expr_iff (f : CaptureFilter) (frame : Frame) :
    f.expr.holds frame = true ↔
      frame.isIp = true ∧ (f.watch ≠ [] → ∃ t ∈ f.watch, t.holds frame = true) ∧
        ∀ t ∈ f.exclude, t.holds frame = false := by
  obtain ⟨watch, exclude⟩ := f
  have hwatched : (match watch with
      | [] => FilterExpr.ip
      | t :: ts => .and .ip (.anyOf t ts)).holds frame = true ↔
        frame.isIp = true ∧ (watch ≠ [] → ∃ t ∈ watch, t.holds frame = true) := by
    cases watch with
    | nil => simp [FilterExpr.holds]
    | cons t ts => simp [FilterExpr.holds, FilterExpr.holds_anyOf]
  cases exclude with
  | nil => simpa [expr] using hwatched
  | cons t ts =>
    simp only [expr, FilterExpr.holds, FilterExpr.holds_anyOf, Bool.and_eq_true, hwatched, and_assoc]
    simp

/-- The text is a filter that lets the packet through. -/
def Accepts (text : String) (frame : Frame) : Prop :=
  ∃ f, sentence text.toList f ∧ f.expr.holds frame = true

end CaptureFilter

end SmartIDS.PacketCapture
