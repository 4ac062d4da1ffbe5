import RtmpRelay.Relayer
import Mathlib.Data.Nat.Digits.Lemmas
import Mathlib.Tactic.IntervalCases
import Mathlib.Tactic.NormNum

/-!
# The command line

`parse_argv` walks the arguments once. Most options take the next argument as
their value, whatever it is, and fail when there is none; `--grpc` stands
alone, and an argument that is no option is skipped. The two numbers go through
`atoi`, which takes any text, so every `int` can be given for them.
-/

namespace RtmpRelay

open Media

/-- The globals that `parse_argv` sets. -/
structure Globals where
  appkey : String
  akId : String
  akSecret : String
  token : String
  inUrl : String
  outUrl : String
  dictFile : String
  delay : Int
  sentenceGap : Int
  enableGrpc : Bool
  grpcHost : String
  deriving DecidableEq, Repr

def longMin : Int := -9223372036854775808
def longMax : Int := 9223372036854775807

namespace Arguments

def defaults : Globals :=
  { appkey := ""
    akId := ""
    akSecret := ""
    token := ""
    inUrl := ""
    outUrl := ""
    dictFile := ""
    delay := 15
    sentenceGap := 200
    enableGrpc := false
    grpcHost := "" }

def isSpace (c : Char) : Bool := c = ' ' || (9 ≤ c.toNat && c.toNat ≤ 13)

def decimalValue (v : ℕ) : List Char → ℕ
  | [] => v
  | c :: cs => if c.isDigit then decimalValue (10 * v + (c.toNat - 48)) cs else v

def clampLong (x : Int) : Int := max longMin (min x longMax)

-- `strtol(nptr, NULL, 10)`, which saturates.
def strtol (nptr : List Char) : Int :=
  match nptr.dropWhile isSpace with
  | '-' :: cs => clampLong (-decimalValue 0 cs)
  | '+' :: cs => clampLong (decimalValue 0 cs)
  | cs => clampLong (decimalValue 0 cs)

def atoi (nptr : String) : Int := narrowInt (strtol nptr.toList)

def assign (g : Globals) (arg : String) : Option (String → Globals) :=
  if arg = "--appkey" then some fun v => { g with appkey := v }
  else if arg = "--akId" then some fun v => { g with akId := v }
  else if arg = "--akSecret" then some fun v => { g with akSecret := v }
  else if arg = "--token" then some fun v => { g with token := v }
  else if arg = "--in" then some fun v => { g with inUrl := v }
  else if arg = "--out" then some fun v => { g with outUrl := v }
  else if arg = "--dict" then some fun v => { g with dictFile := v }
  else if arg = "--delay" then some fun v => { g with delay := atoi v }
  else if arg = "--maxSentenceGap" then some fun v => { g with sentenceGap := atoi v }
  else if arg = "--grpcHost" then some fun v => { g with grpcHost := v }
  else none

def flag (g : Globals) (arg : String) : Globals :=
  if arg = "--grpc" then { g with enableGrpc := true } else g

def parseLoop : Globals → List String → Option Globals
  | g, [] => some g
  | g, arg :: args =>
    match assign g arg with
    | none => parseLoop (flag g arg) args
    | some store =>
      match args with
      | [] => none
      | value :: args => parseLoop (store value) args

def parseArgv (argv : List String) : Option Globals := do
  let g ← parseLoop defaults argv
  if g.inUrl = "" ∨ g.outUrl = "" then none else some g

/-- The settings of the relay that `main` takes from the globals. -/
def settings (g : Globals) : Settings :=
  { outUrl := g.outUrl
    delaySec := g.delay
    maxSentenceSilenceMs := g.sentenceGap }

/-! Every `int` is the value of some text. -/

def decimalText (x : Int) : List Char :=
  (if x < 0 then '-' else '+') :: (Nat.digits 10 x.natAbs).reverse.map Nat.digitChar

theorem digitChar_value {d : ℕ} (hd : d < 10) :
    (Nat.digitChar d).isDigit = true ∧ (Nat.digitChar d).toNat - 48 = d := by
  interval_cases d <;> exact ⟨rfl, rfl⟩

theorem decimalValue_digits {ds : List ℕ} (hds : ∀ d ∈ ds, d < 10) (v : ℕ) :
    decimalValue v (ds.map Nat.digitChar) = ds.foldl (fun v d => d + 10 * v) v := by
  induction ds generalizing v with
  | nil => rfl
  | cons d ds ih =>
    obtain ⟨hdigit, hvalue⟩ := digitChar_value (hds d List.mem_cons_self)
    rw [List.map_cons, decimalValue, if_pos hdigit, hvalue, List.foldl_cons, Nat.add_comm]
    exact ih (fun e he => hds e (List.mem_cons_of_mem d he)) _

theorem decimalValue_natAbs (n : ℕ) :
    decimalValue 0 ((Nat.digits 10 n).reverse.map Nat.digitChar) = n := by
  have hsmall : ∀ d ∈ (Nat.digits 10 n).reverse, d < 10 := by
    intro d hd
    exact Nat.digits_lt_base (by norm_num) (List.mem_reverse.mp hd)
  have hfold := Nat.ofDigits_eq_foldr (10 : ℕ) (Nat.digits 10 n)
  rw [decimalValue_digits hsmall, List.foldl_reverse]
  exact hfold.symm.trans (Nat.ofDigits_digits 10 n)

theorem atoi_decimalText {x : Int} (hx : InInt x) :
    atoi (String.ofList (decimalText x)) = x := by
  have hlong : clampLong x = x := by
    unfold clampLong longMin longMax InInt intMin intMax at *
    omega
  rw [atoi, String.toList_ofList, decimalText]
  by_cases hneg : x < 0
  · have hvalue : -((x.natAbs : ℕ) : Int) = x := by omega
    rw [if_pos hneg]
    change narrowInt (clampLong (-(decimalValue 0 _ : ℕ))) = x
    rw [decimalValue_natAbs, hvalue, hlong, narrowInt_eq hx]
  · have hvalue : ((x.natAbs : ℕ) : Int) = x := by omega
    rw [if_neg hneg]
    change narrowInt (clampLong (decimalValue 0 _ : ℕ)) = x
    rw [decimalValue_natAbs, hvalue, hlong, narrowInt_eq hx]

theorem parseArgv_sample (value : String) :
    parseArgv ["--in", "a", "--out", "b", "--delay", value] =
      some { defaults with inUrl := "a", outUrl := "b", delay := atoi value } := rfl

/-- `parse_argv` accepts every `int` for `--delay`, and `main` passes it on. -/
theorem parseArgv_delay {x : Int} (hx : InInt x) :
    ∃ argv g, parseArgv argv = some g ∧ (settings g).delaySec = x := by
  have hsome := parseArgv_sample (String.ofList (decimalText x))
  rw [atoi_decimalText hx] at hsome
  exact ⟨_, _, hsome, rfl⟩

end Arguments

end RtmpRelay
