import Kitsune2.Api.Basic

/-!
# Url — validated URLs

A URL is kept as the bytes it was made from.  `Url::new` accepts the canonical spelling of a URL with
one of four schemes, a host, a port and no empty path segments; taking the text apart is done by the
`url` crate.
-/

namespace Kitsune2
namespace Api

/-- What the `url` crate finds in a text. -/
structure ParsedUrl where
  scheme : String
  hostStr : Option String
  /-- The port, or the one known for the scheme. -/
  portOrKnownDefault : Option Nat
  path : String
  deriving DecidableEq, Repr

/-- `std::str::from_utf8`. -/
def strFromUtf8 (bytes : Bytes) : Option String :=
  String.fromUTF8? ⟨bytes.toArray⟩

def hasEmptySegments (path : String) : Bool :=
  ((path.splitOn "/").drop 1).any fun segment => segment.isEmpty

def canonicalUrl (scheme host : String) (port : Nat) (path : String) : String :=
  if path = "/" then scheme ++ "://" ++ host ++ ":" ++ toString port
  else scheme ++ "://" ++ host ++ ":" ++ toString port ++ path

section Url

variable (parse : String → Option ParsedUrl)

/-- The checks of `Url::new`. -/
def validateUrl (src : Bytes) : Except Fault Unit :=
  match strFromUtf8 src with
  | none => .error (.k2 "Kitsne2 Url is not valid utf8")
  | some strSrc =>
      match parse strSrc with
      | none => .error (.k2 "Could not parse as Kitsune2 Url")
      | some parsed =>
          if parsed.scheme ∉ ["ws", "wss", "http", "https"] then
            .error (.k2 ("Invalid Kitsune2 Url Scheme: " ++ parsed.scheme))
          else
            match parsed.hostStr with
            | none => .error (.k2 "Invalid Kitsune2 Url, Missing Host")
            | some host =>
                -- the known default port is accepted here; the comparison below asks for it in
                -- the text
                match parsed.portOrKnownDefault with
                | none => .error (.k2 "Invalid Kitsune2 Url, Explicit Port Required")
                | some port =>
                    if parsed.path ≠ "/" ∧ hasEmptySegments parsed.path = true then
                      .error (.k2 "Invalid Kitsune2 Url, path must not contain empty segments")
                    else
                      let canonical := canonicalUrl parsed.scheme host port parsed.path
                      if strSrc ≠ canonical then
                        .error (.k2 ("Invalid Kitsune2 Url, Non-Canonical. Expected: " ++ canonical ++
                          ". Got: " ++ strSrc))
                      else .ok ()

/-- A validated URL. -/
structure Url where
  bytes : Bytes
  valid : validateUrl parse bytes = .ok ()

def Url.new (src : Bytes) : Except Fault (Url parse) :=
  match h : validateUrl parse src with
  | .ok () => .ok ⟨src, h⟩
  | .error fault => .error fault

variable {parse}

/-- The bytes of a URL make the URL again. -/
theorem Url.new_bytes (url : Url parse) : Url.new parse url.bytes = .ok url := by
  unfold Url.new
  split
  · rfl
  · rename_i fault h
    rw [url.valid] at h
    cases h

theorem Url.bytes_of_new {src : Bytes} {url : Url parse} (h : Url.new parse src = .ok url) :
    url.bytes = src := by
  unfold Url.new at h
  split at h
  · cases h
    rfl
  · cases h

/-- A validated URL is a text. -/
theorem Url.text (url : Url parse) : ∃ text, strFromUtf8 url.bytes = some text := by
  have hvalid := url.valid
  unfold validateUrl at hvalid
  cases htext : strFromUtf8 url.bytes with
  | none =>
      rw [htext] at hvalid
      cases hvalid
  | some text => exact ⟨text, rfl⟩

theorem validateUrl_not_panicked (src : Bytes) (reason : String) :
    validateUrl parse src ≠ .error (.panicked reason) := by
  intro h
  unfold validateUrl at h
  dsimp only at h
  repeat' split at h
  all_goals cases h

end Url

end Api
end Kitsune2
