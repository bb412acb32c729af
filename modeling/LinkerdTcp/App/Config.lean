import LinkerdTcp.Basic

/-! # Reading the configuration text

`app/config.rs`: `from_str` drops the text's leading whitespace and reads the
rest as JSON when it starts with `{`, as YAML otherwise. The two decoders,
`serde_json::from_str` and `serde_yaml::from_str` into `AppConfig`, are the
parameters `json` and `yaml`; what they accept is theirs, so only the choice
between them, and what either is given, is modelled here.
-/

namespace LinkerdTcp.App
set_option autoImplicit false

/-- `char::is_whitespace`, the Unicode `White_Space` characters, by which `str::trim_left`
trims. -/
def isWhitespace (c : Char) : Bool :=
  let n := c.toNat
  (0x9 ≤ n && n ≤ 0xD) || n == 0x20 || n == 0x85 || n == 0xA0 || n == 0x1680 ||
    (0x2000 ≤ n && n ≤ 0x200A) || n == 0x2028 || n == 0x2029 || n == 0x202F || n == 0x205F ||
    n == 0x3000

example : isWhitespace ' ' ∧ isWhitespace '\n' ∧ isWhitespace (Char.ofNat 0x3000) ∧
    ¬isWhitespace 'a' ∧ ¬isWhitespace '{' := by decide

def trimLeft (txt : String) : String := ⟨txt.toList.dropWhile isWhitespace⟩

inductive ErrorKind
  | invalidData
  deriving DecidableEq, Repr

structure IoError where
  kind : ErrorKind
  msg : String
  deriving DecidableEq, Repr

def fromStr {AppConfig : Type} (json yaml : String → Except String AppConfig) (txt : String) :
    Except IoError AppConfig :=
  let txt := trimLeft txt
  if txt.toList.head? = some '{' then (json txt).mapError (IoError.mk .invalidData)
  else (yaml txt).mapError (IoError.mk .invalidData)

theorem trimLeft_spec (txt : String) :
    txt.toList = txt.toList.takeWhile isWhitespace ++ (trimLeft txt).toList ∧
      (∀ c ∈ txt.toList.takeWhile isWhitespace, isWhitespace c = true) ∧
      ∀ c ∈ (trimLeft txt).toList.head?, isWhitespace c = false := by
  refine ⟨(List.takeWhile_append_dropWhile _ _).symm, fun c hc => List.mem_takeWhile_imp hc,
    fun c hc => ?_⟩
  have h := List.head?_dropWhile_not isWhitespace txt.toList
  have hc' : (txt.toList.dropWhile isWhitespace).head? = some c := hc
  rw [hc'] at h
  exact h

end LinkerdTcp.App
