/-
  URLs and request targets, and what the proxy asks of the `url` and `http`
  crates.

  The two crates are not part of the repository: they are the fields of
  `UrlCrate`, and a result that depends on how they behave says so in a
  hypothesis.
-/
import Mathlib.Data.Nat.Notation

namespace FerrumProxy

/-- A parsed absolute URL (`url::Url`), as far as the proxy reads it. -/
structure Url where
  scheme : String
  host : Option String
  port : Option ℕ
  path : String
  query : Option String
deriving DecidableEq, Repr

/-- A request target (`hyper::Uri`). -/
structure Uri where
  path : String
  query : Option String
deriving DecidableEq, Repr

/-- The functions of the `url` and `http` crates that the proxy calls. -/
structure UrlCrate where
  /-- `Url::parse` -/
  parse : String → Except String Url
  /-- `Url::set_path` -/
  setPath : Url → String → Url
  /-- `Url::set_query` -/
  setQuery : Url → Option String → Url
  /-- `url.as_str().parse::<Uri>()` -/
  toUri : Url → Except String Uri

end FerrumProxy
