import RtmpRelay.NlsEvent
import RtmpRelay.Occurrences

/-!
# The signed request for a token

The parameters of the request lie in a map, ordered by their names. They are
written twice: percent-encoded and encoded once more as the text that is
signed, and with the signature among them as the query of the URL.
`readQuery` states the format of a query as its reader takes it.
-/

namespace RtmpRelay.CommonClient

open Occurrences
open Json (ascii)

def unreserved (b : UInt8) : Bool :=
  (0x30 ≤ b && b ≤ 0x39) || (0x41 ≤ b && b ≤ 0x5a) || (0x61 ≤ b && b ≤ 0x7a) ||
    b == 0x2d || b == 0x2e || b == 0x5f || b == 0x7e

def hexDigit (n : ℕ) : UInt8 := UInt8.ofNat (if n < 10 then 0x30 + n else 0x37 + n)

def escape (b : UInt8) : Str :=
  if unreserved b then [b] else [0x25, hexDigit (b.toNat / 16), hexDigit (b.toNat % 16)]

def urlEncode (src : Str) : Str := src.flatMap escape

def hexValue (b : UInt8) : Option ℕ :=
  if 0x30 ≤ b && b ≤ 0x39 then some (b.toNat - 0x30)
  else if 0x41 ≤ b && b ≤ 0x46 then some (b.toNat - 0x37)
  else if 0x61 ≤ b && b ≤ 0x66 then some (b.toNat - 0x57)
  else none

/-- Less than three bytes hold no escape. -/
def urlDecode : Str → Str
  | c :: a :: b :: t =>
    if c = 0x25 then
      match hexValue a, hexValue b with
      | some x, some y => UInt8.ofNat (16 * x + y) :: urlDecode t
      | _, _ => c :: urlDecode (a :: b :: t)
    else c :: urlDecode (a :: b :: t)
  | src => src

/-- Each turn moves `pos` past what it put in, so the length of `src` bounds the turns. -/
def replaceLoop (s1 s2 : Str) : ℕ → Str → ℕ → Str
  | 0, src, _ => src
  | turns + 1, src, pos =>
    match findFrom src s1 pos with
    | none => src
    | some p =>
      replaceLoop s1 s2 turns (src.take p ++ s2 ++ src.drop (p + s1.length)) (p + s2.length)

def stringReplace (src s1 s2 : Str) : Str := replaceLoop s1 s2 (src.length + 1) src 0

inductive Method
  | get
  | head
  | post
  | put
  | delete
  | connect
  | options
  | patch
  | trace
  deriving DecidableEq, Repr

def httpMethodToString : Method → Str
  | .head => ascii "HEAD"
  | .post => ascii "POST"
  | .put => ascii "PUT"
  | .delete => ascii "DELETE"
  | .connect => ascii "CONNECT"
  | .options => ascii "OPTIONS"
  | .patch => ascii "PATCH"
  | .trace => ascii "TRACE"
  | .get => ascii "GET"

/-- `params[key] = value` on a map, which keeps its keys in order. -/
def assign (key value : Str) : List (Str × Str) → List (Str × Str)
  | [] => [(key, value)]
  | (k, v) :: params =>
    if key < k then (key, value) :: (k, v) :: params
    else if key = k then (k, value) :: params
    else (k, v) :: assign key value params

def canonical (src : Str) : Str :=
  stringReplace
    (stringReplace (stringReplace (urlEncode src) (ascii "+") (ascii "%20")) (ascii "*")
      (ascii "%2A"))
    (ascii "%7E") (ascii "~")

def canonicalizedQuery (params : List (Str × Str)) : Str :=
  if params = [] then []
  else
    (params.flatMap fun p =>
      ascii "&" ++ (canonical p.1 ++ ascii "=" ++ canonical p.2)).drop 1

structure TokenRequest where
  method : Method
  accessKeyId : Str
  action : Str
  regionId : Str
  signatureNonce : Str
  date : Str
  version : Str
  deriving DecidableEq, Repr

namespace TokenRequest

def queryParams (r : TokenRequest) : List (Str × Str) :=
  assign (ascii "Version") r.version <|
  assign (ascii "Timestamp") r.date <|
  assign (ascii "SignatureVersion") (ascii "1.0") <|
  assign (ascii "SignatureNonce") r.signatureNonce <|
  assign (ascii "SignatureMethod") (ascii "HMAC-SHA1") <|
  assign (ascii "RegionId") r.regionId <|
  assign (ascii "Format") (ascii "JSON") <|
  assign (ascii "Action") r.action <|
  assign (ascii "AccessKeyId") r.accessKeyId []

end TokenRequest

def filePlaintext (method : Method) (params : List (Str × Str)) : Str :=
  httpMethodToString method ++ ascii "&" ++ urlEncode (ascii "/") ++ ascii "&" ++
    urlEncode (canonicalizedQuery params)

section request
variable (generate : Str → Str → Str) (accessKeySecret : Str) (r : TokenRequest)

def signedParams : List (Str × Str) :=
  assign (ascii "Signature")
    (generate (filePlaintext r.method r.queryParams) (accessKeySecret ++ ascii "&")) r.queryParams

/-- A name that `strncmp` finds to begin `Task` is left out. -/
def queryString (params : List (Str × Str)) : Str :=
  ((params.filter fun p => !p.1.isPrefixOf (ascii "Task")).flatMap fun p =>
    ascii "&" ++ (p.1 ++ ascii "=" ++ urlEncode p.2)).drop 1

def buildTokenHttpRpcRequest : Str := queryString (signedParams generate accessKeySecret r)

end request

def readItem (item : Str) : Str × Str :=
  (urlDecode (item.takeWhile fun b => b != 0x3d),
    urlDecode ((item.dropWhile fun b => b != 0x3d).drop 1))

def readQuery (query : Str) : List (Str × Str) := (query.splitOn 0x26).map readItem

section encode

theorem hexDigit_value : ∀ n < 16, hexValue (hexDigit n) = some n := by decide

theorem hexDigit_plain : ∀ n < 16, unreserved (hexDigit n) = true := by decide

theorem unreserved_ne {b c : UInt8} (hb : unreserved b = true) (hc : unreserved c = false) :
    b ≠ c := by
  intro h
  rw [h, hc] at hb
  cases hb

theorem high_lt (b : UInt8) : b.toNat / 16 < 16 := by
  have hb := b.toNat_lt
  omega

theorem low_lt (b : UInt8) : b.toNat % 16 < 16 := Nat.mod_lt _ (by decide)

theorem not_mem_urlEncode {c : UInt8} (hc : unreserved c = false) (hp : c ≠ 0x25) (src : Str) :
    c ∉ urlEncode src := by
  intro h
  obtain ⟨b, -, hmem⟩ := List.mem_flatMap.mp h
  rw [escape] at hmem
  split at hmem
  · rename_i hb
    exact unreserved_ne hb hc (List.mem_singleton.mp hmem).symm
  · rcases List.mem_cons.mp hmem with hmem | hmem
    · exact hp hmem
    · rcases List.mem_cons.mp hmem with hmem | hmem
      · exact unreserved_ne (hexDigit_plain _ (high_lt b)) hc hmem.symm
      · exact unreserved_ne (hexDigit_plain _ (low_lt b)) hc (List.mem_singleton.mp hmem).symm

theorem urlDecode_cons {c : UInt8} (hc : c ≠ 0x25) (t : Str) :
    urlDecode (c :: t) = c :: urlDecode t := by
  cases t with
  | nil => rfl
  | cons a t =>
    cases t with
    | nil => rfl
    | cons b t => rw [urlDecode, if_neg hc]

theorem urlDecode_escape (b : UInt8) (t : Str) : urlDecode (escape b ++ t) = b :: urlDecode t := by
  rw [escape]
  split
  · rename_i hb
    exact urlDecode_cons (unreserved_ne hb (by decide)) t
  · have hb := b.toNat_lt
    have hsum : 16 * (b.toNat / 16) + b.toNat % 16 = b.toNat := Nat.div_add_mod _ _
    show urlDecode (0x25 :: hexDigit (b.toNat / 16) :: hexDigit (b.toNat % 16) :: t) = _
    rw [urlDecode, if_pos rfl, hexDigit_value _ (high_lt b), hexDigit_value _ (low_lt b)]
    simp only [hsum, UInt8.ofNat_toNat]

theorem urlDecode_urlEncode (src : Str) : urlDecode (urlEncode src) = src := by
  have happ : ∀ t, urlDecode (urlEncode src ++ t) = src ++ urlDecode t := by
    intro t
    induction src with
    | nil => rfl
    | cons b src ih =>
      rw [urlEncode, List.flatMap_cons, List.append_assoc, urlDecode_escape, ← urlEncode, ih]
      rfl
  have h := happ []
  rw [List.append_nil] at h
  rw [h]
  exact List.append_nil src

end encode

section replace

theorem stringReplace_none {src s1 : Str} (s2 : Str) (h : ∀ i, ¬ OccursAt s1 src i) :
    stringReplace src s1 s2 = src := by
  have hnone : findFrom src s1 0 = none := findFrom_eq_none.mpr fun q _ => h q
  rw [stringReplace, replaceLoop, hnone]

theorem not_occursAt_of_not_mem {c : UInt8} {src : Str} (h : c ∉ src) (i : ℕ) :
    ¬ OccursAt [c] src i := by
  intro hocc
  obtain ⟨-, t, ht⟩ := hocc
  apply h
  apply List.mem_of_mem_drop (i := i)
  rw [← ht]
  exact List.mem_cons_self

theorem not_occursAt_tilde (src : Str) (i : ℕ) :
    ¬ OccursAt (ascii "%7E") (urlEncode src) i := by
  have hword : ascii "%7E" = [0x25, 0x37, 0x45] := rfl
  rw [hword]
  induction src generalizing i with
  | nil => exact occursAt_nil_iff (List.cons_ne_nil _ _)
  | cons b src ih =>
    have hcons : urlEncode (b :: src) = escape b ++ urlEncode src := rfl
    rw [hcons, escape]
    split
    · rename_i hb
      cases i with
      | zero =>
        intro hocc
        obtain ⟨-, t, ht⟩ := hocc
        exact unreserved_ne hb (by decide) (List.cons.inj ht).1.symm
      | succ i =>
        intro hocc
        exact ih i (occursAt_cons_succ.mp hocc)
    · rename_i hb
      have hhigh := hexDigit_plain _ (high_lt b)
      have hlow := hexDigit_plain _ (low_lt b)
      intro hocc
      cases i with
      | zero =>
        obtain ⟨-, t, ht⟩ := hocc
        have htail := List.cons.inj (List.cons.inj ht).2
        have h7 := hexDigit_value _ (high_lt b)
        have h14 := hexDigit_value _ (low_lt b)
        rw [← htail.1] at h7
        rw [← (List.cons.inj htail.2).1] at h14
        have hseven : b.toNat / 16 = 7 := (Option.some.inj h7).symm
        have hfourteen : b.toNat % 16 = 14 := (Option.some.inj h14).symm
        have htilde : b = 0x7e := by
          apply UInt8.toNat_inj.mp
          show b.toNat = 126
          omega
        rw [htilde] at hb
        exact hb (by decide)
      | succ i =>
        have hocc := occursAt_cons_succ.mp hocc
        cases i with
        | zero =>
          obtain ⟨-, t, ht⟩ := hocc
          exact unreserved_ne hhigh (by decide) (List.cons.inj ht).1.symm
        | succ i =>
          have hocc := occursAt_cons_succ.mp hocc
          cases i with
          | zero =>
            obtain ⟨-, t, ht⟩ := hocc
            exact unreserved_ne hlow (by decide) (List.cons.inj ht).1.symm
          | succ i => exact ih i (occursAt_cons_succ.mp hocc)

theorem canonical_eq (src : Str) : canonical src = urlEncode src := by
  have hplus : ∀ i, ¬ OccursAt (ascii "+") (urlEncode src) i :=
    not_occursAt_of_not_mem (not_mem_urlEncode (by decide) (by decide) src)
  have hstar : ∀ i, ¬ OccursAt (ascii "*") (urlEncode src) i :=
    not_occursAt_of_not_mem (not_mem_urlEncode (by decide) (by decide) src)
  rw [canonical, stringReplace_none _ hplus, stringReplace_none _ hstar,
    stringReplace_none _ (not_occursAt_tilde src)]

end replace

section read

theorem readItem_joined {k : Str} (hk : 0x3d ∉ k) (v : Str) :
    readItem (k ++ ascii "=" ++ v) = (urlDecode k, urlDecode v) := by
  have hall : ∀ b ∈ k, (b != 0x3d) = true := by
    intro b hb
    rw [bne_iff_ne]
    intro h
    exact hk (h ▸ hb)
  have hitem : k ++ ascii "=" ++ v = k ++ 0x3d :: v := List.append_assoc k [0x3d] v
  rw [readItem, hitem, List.takeWhile_append_of_pos hall, List.dropWhile_append_of_pos hall,
    List.takeWhile_cons_of_neg (by decide), List.dropWhile_cons_of_neg (by decide),
    List.append_nil]
  rfl

theorem joined (item : Str) (items : List Str) :
    ((item :: items).flatMap fun t => ascii "&" ++ t) =
      0x26 :: [0x26].intercalate (item :: items) := by
  induction items generalizing item with
  | nil =>
    rw [List.intercalate_singleton, List.flatMap_singleton]
    rfl
  | cons t items ih =>
    rw [List.flatMap_cons, ih, List.intercalate_cons_cons, List.append_assoc, List.append_assoc]
    rfl

theorem readQuery_joined {params : List (Str × Str)} {f : Str → Str} (hne : params ≠ [])
    (hf : ∀ p ∈ params, 0x26 ∉ f p.1 ∧ 0x3d ∉ f p.1 ∧ urlDecode (f p.1) = p.1) :
    readQuery ((params.flatMap fun p =>
      ascii "&" ++ (f p.1 ++ ascii "=" ++ urlEncode p.2)).drop 1) = params := by
  have hmap : (params.flatMap fun p => ascii "&" ++ (f p.1 ++ ascii "=" ++ urlEncode p.2)) =
      (params.map fun p => f p.1 ++ ascii "=" ++ urlEncode p.2).flatMap fun t => ascii "&" ++ t :=
    (List.flatMap_map _ _ _).symm
  have hitems : (params.map fun p => f p.1 ++ ascii "=" ++ urlEncode p.2) ≠ [] := by
    intro h
    exact hne (List.map_eq_nil_iff.mp h)
  have hsplit : ∀ t ∈ params.map (fun p => f p.1 ++ ascii "=" ++ urlEncode p.2), 0x26 ∉ t := by
    intro t ht
    obtain ⟨p, hp, rfl⟩ := List.mem_map.mp ht
    intro h
    rcases List.mem_append.mp h with h | h
    · rcases List.mem_append.mp h with h | h
      · exact (hf p hp).1 h
      · exact absurd h (by decide)
    · exact not_mem_urlEncode (by decide) (by decide) p.2 h
  have hread : (params.map fun p => f p.1 ++ ascii "=" ++ urlEncode p.2).map readItem =
      params := by
    have hid : ∀ p ∈ params, readItem (f p.1 ++ ascii "=" ++ urlEncode p.2) = id p := by
      intro p hp
      rw [readItem_joined (hf p hp).2.1, (hf p hp).2.2, urlDecode_urlEncode]
      rfl
    rw [List.map_map]
    exact (List.map_congr_left hid).trans (List.map_id params)
  obtain ⟨item, items, hcons⟩ := List.exists_cons_of_ne_nil hitems
  rw [hmap, hcons, joined, List.drop_succ_cons, List.drop_zero, readQuery, ← hcons,
    List.splitOn_intercalate _ hsplit hitems, hread]

theorem readQuery_canonicalizedQuery {params : List (Str × Str)} (hne : params ≠ []) :
    readQuery (canonicalizedQuery params) = params := by
  rw [canonicalizedQuery, if_neg hne]
  simp only [canonical_eq]
  exact readQuery_joined hne fun p _ =>
    ⟨not_mem_urlEncode (by decide) (by decide) p.1, not_mem_urlEncode (by decide) (by decide) p.1,
      urlDecode_urlEncode p.1⟩

end read

section signed

theorem httpMethodToString_plain (m : Method) : 0x26 ∉ httpMethodToString m := by
  cases m <;> decide

theorem httpMethodToString_injective {m m' : Method}
    (h : httpMethodToString m = httpMethodToString m') : m = m' := by
  cases m <;> cases m' <;> first | rfl | exact absurd h (by decide)

theorem filePlaintext_injective {m m' : Method} {params params' : List (Str × Str)}
    (hne : params ≠ []) (hne' : params' ≠ [])
    (h : filePlaintext m params = filePlaintext m' params') : m = m' ∧ params = params' := by
  have htext : ∀ (m : Method) (params : List (Str × Str)), filePlaintext m params =
      httpMethodToString m ++
        0x26 :: (urlEncode (ascii "/") ++ 0x26 :: urlEncode (canonicalizedQuery params)) := by
    intro m params
    rw [filePlaintext, List.append_assoc, List.append_assoc, List.append_assoc]
    rfl
  rw [htext, htext] at h
  have hm : m = m' := by
    have hsplit := congrArg (List.splitOn 0x26) h
    rw [List.splitOn_append_cons_self_of_not_mem (httpMethodToString_plain m),
      List.splitOn_append_cons_self_of_not_mem (httpMethodToString_plain m')] at hsplit
    exact httpMethodToString_injective (List.cons.inj hsplit).1
  rw [hm] at h
  have htail := List.append_cancel_left (List.cons.inj (List.append_cancel_left h)).2
  have hencoded := (List.cons.inj htail).2
  have hquery : canonicalizedQuery params = canonicalizedQuery params' := by
    rw [← urlDecode_urlEncode (canonicalizedQuery params), hencoded, urlDecode_urlEncode]
  refine ⟨hm, ?_⟩
  rw [← readQuery_canonicalizedQuery hne, hquery, readQuery_canonicalizedQuery hne']

namespace TokenRequest

theorem queryParams_eq (r : TokenRequest) : r.queryParams =
    [(ascii "AccessKeyId", r.accessKeyId), (ascii "Action", r.action),
      (ascii "Format", ascii "JSON"), (ascii "RegionId", r.regionId),
      (ascii "SignatureMethod", ascii "HMAC-SHA1"), (ascii "SignatureNonce", r.signatureNonce),
      (ascii "SignatureVersion", ascii "1.0"), (ascii "Timestamp", r.date),
      (ascii "Version", r.version)] := rfl

theorem queryParams_injective {r r' : TokenRequest} (hm : r.method = r'.method)
    (h : r.queryParams = r'.queryParams) : r = r' := by
  rw [queryParams_eq, queryParams_eq] at h
  simp only [List.cons.injEq, Prod.mk.injEq, true_and, and_true] at h
  obtain ⟨hkey, haction, hregion, hnonce, hdate, hversion⟩ := h
  obtain ⟨method, accessKeyId, action, regionId, signatureNonce, date, version⟩ := r
  simp only at hm hkey haction hregion hnonce hdate hversion
  rw [hm, hkey, haction, hregion, hnonce, hdate, hversion]

end TokenRequest

/-- Two requests with the same signed text are the same request. -/
theorem signed_text_injective (r r' : TokenRequest) :
    filePlaintext r.method r.queryParams = filePlaintext r'.method r'.queryParams ↔ r = r' := by
  constructor
  · intro h
    have hne : ∀ r : TokenRequest, r.queryParams ≠ [] := by
      intro r
      rw [TokenRequest.queryParams_eq]
      exact List.cons_ne_nil _ _
    obtain ⟨hm, hparams⟩ := filePlaintext_injective (hne r) (hne r') h
    exact TokenRequest.queryParams_injective hm hparams
  · intro h
    rw [h]

def names : List Str :=
  [ascii "AccessKeyId", ascii "Action", ascii "Format", ascii "RegionId", ascii "Signature",
    ascii "SignatureMethod", ascii "SignatureNonce", ascii "SignatureVersion", ascii "Timestamp",
    ascii "Version"]

section query
variable (generate : Str → Str → Str) (accessKeySecret : Str) (r : TokenRequest)

theorem signedParams_names :
    (signedParams generate accessKeySecret r).map Prod.fst = names := rfl

theorem signedParams_unsigned :
    ((signedParams generate accessKeySecret r).filter fun p => p.1 != ascii "Signature") =
      r.queryParams := rfl

theorem names_plain : ∀ k ∈ names, 0x26 ∉ k ∧ 0x3d ∉ k ∧ urlDecode k = k := by decide

theorem names_sent : ∀ k ∈ names, (!k.isPrefixOf (ascii "Task")) = true := by decide

/-- The query of the URL is read back as the parameters with their signature, and these, without
it, give the text that was signed. -/
theorem query_read_back :
    readQuery (buildTokenHttpRpcRequest generate accessKeySecret r) =
        signedParams generate accessKeySecret r ∧
      filePlaintext r.method
          ((readQuery (buildTokenHttpRpcRequest generate accessKeySecret r)).filter
            fun p => p.1 != ascii "Signature") =
        filePlaintext r.method r.queryParams := by
  have hnames : ∀ p ∈ signedParams generate accessKeySecret r, p.1 ∈ names := by
    intro p hp
    rw [← signedParams_names generate accessKeySecret r]
    exact List.mem_map_of_mem hp
  have hsent : ((signedParams generate accessKeySecret r).filter fun p =>
      !p.1.isPrefixOf (ascii "Task")) = signedParams generate accessKeySecret r :=
    List.filter_eq_self.mpr fun p hp => names_sent p.1 (hnames p hp)
  have hne : signedParams generate accessKeySecret r ≠ [] := by
    intro h
    have hmap := signedParams_names generate accessKeySecret r
    rw [h] at hmap
    exact absurd hmap (by decide)
  have hread : readQuery (buildTokenHttpRpcRequest generate accessKeySecret r) =
      signedParams generate accessKeySecret r := by
    rw [buildTokenHttpRpcRequest, queryString, hsent]
    exact readQuery_joined (f := fun k => k) hne fun p hp => names_plain p.1 (hnames p hp)
  rw [hread, signedParams_unsigned]
  exact ⟨rfl, rfl⟩

end query

end signed

end RtmpRelay.CommonClient
