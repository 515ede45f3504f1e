import EmployeePortal.Core.Exceptions
import EmployeePortal.Python.Text

/-!
# `urllib.parse.urlparse`

The scheme and the host of a URL, as Python 3.12 splits it. The rest of the URL plays
no part.
-/

namespace EmployeePortal.Python

/-- What `urlparse` asks of tables: whether an authority with brackets or with
characters outside ASCII passes its checks (the brackets hold an IP address, no
separator hides behind NFKC), and the lower case of a character outside ASCII. -/
class UrlData where
  acceptsNetloc : String → Bool
  lower : Char → List Char

/-- Tables for closed runs, which have only plain hosts. -/
abbrev plainHosts : UrlData where
  acceptsNetloc := fun _ => true
  lower := fun c => [c]

namespace Ascii

scoped instance : UrlData := plainHosts

end Ascii

structure ParsedUrl where
  scheme : String
  netloc : String
deriving DecidableEq

/-! ## `urlsplit` -/

def isSchemeChar (c : Char) : Bool := c.isAlphanum || c == '+' || c == '-' || c == '.'

/-- The scheme in lower case and the rest, where the text has a scheme. -/
def splitScheme (cs : List Char) : List Char × List Char :=
  let name := cs.takeWhile (· ≠ ':')
  match cs.dropWhile (· ≠ ':') with
  | ':' :: rest =>
      if (name.head?.any Char.isAlpha) && name.all isSchemeChar then (name.map Char.toLower, rest)
      else ([], cs)
  | _ => ([], cs)

/-- Leading blanks and control characters are dropped, tabs and line ends removed
everywhere. -/
def cleanUrl (cs : List Char) : List Char :=
  (cs.dropWhile (·.toNat ≤ 32)).filter fun c => c ≠ '\t' ∧ c ≠ '\r' ∧ c ≠ '\n'

def splitNetloc : List Char → List Char
  | '/' :: '/' :: rest => rest.takeWhile fun c => c ≠ '/' ∧ c ≠ '?' ∧ c ≠ '#'
  | _ => []

section Urlparse

variable [UrlData]

/-- An authority is plain when no check concerns it. -/
def isPlainNetloc (cs : List Char) : Bool :=
  cs.all isAscii && '[' ∉ cs && ']' ∉ cs

def urlparse (url : String) : Except Exc ParsedUrl :=
  let (scheme, rest) := splitScheme (cleanUrl url.toList)
  let netloc := splitNetloc rest
  if isPlainNetloc netloc || UrlData.acceptsNetloc (String.ofList netloc) then
    .ok ⟨String.ofList scheme, String.ofList netloc⟩
  else .error (.valueError "Invalid URL authority")

theorem urlparse_error {url : String} {e : Exc} (h : urlparse url = .error e) :
    ∃ message, e = .valueError message := by
  unfold urlparse at h
  dsimp only at h
  split at h
  · cases h
  · exact ⟨_, (Except.error.inj h).symm⟩

/-! ## `hostname` -/

/-- What stands after the last `c`. -/
def afterLast (c : Char) (cs : List Char) : List Char := (cs.reverse.takeWhile (· ≠ c)).reverse

def lowerChar (c : Char) : List Char := if isAscii c then [c.toLower] else UrlData.lower c

/-- The host without user, port and brackets, in lower case up to a zone. -/
def ParsedUrl.hostname (url : ParsedUrl) : Option String :=
  let hostinfo := afterLast '@' url.netloc.toList
  let host := match hostinfo.dropWhile (· ≠ '[') with
    | '[' :: bracketed => bracketed.takeWhile (· ≠ ']')
    | _ => hostinfo.takeWhile (· ≠ ':')
  if host = [] then none
  else some (String.ofList ((host.takeWhile (· ≠ '%')).flatMap lowerChar ++
    host.dropWhile (· ≠ '%')))

end Urlparse

/-! ## `AnyHttpUrl` and `httpx.URL` -/

inductive HttpScheme where
  | http
  | https
deriving DecidableEq

def HttpScheme.text : HttpScheme → String
  | http => "http"
  | https => "https"

/-- The characters that end an authority. -/
def isDelimiter (c : Char) : Bool := c == '/' || c == '?' || c == '#'

/-- `AnyHttpUrl`: a URL of one of the two schemes with an authority. `rest` is its path,
query and fragment. -/
structure AnyHttpUrl where
  scheme : HttpScheme
  netloc : String
  rest : String
  netloc_nonempty : netloc ≠ ""
  netloc_plain : netloc.toList.all (!isDelimiter ·) = true
  rest_delimited : rest.toList.head?.all isDelimiter = true

def AnyHttpUrl.text (url : AnyHttpUrl) : String :=
  url.scheme.text ++ "://" ++ url.netloc ++ url.rest

/-- What `httpx.URL` reads of a text: the scheme and the authority, empty where there is
none. -/
def readUrl (url : String) : ParsedUrl :=
  let (scheme, rest) := splitScheme url.toList
  ⟨String.ofList scheme, String.ofList (splitNetloc rest)⟩

/-- Where a client with this base URL sends a request: an absolute URL stands for itself,
any other is a path under the base URL. -/
def mergeUrl (base url : String) : ParsedUrl :=
  if (readUrl url).scheme ≠ "" ∧ (readUrl url).netloc ≠ "" then readUrl url else readUrl base

section Httpx

variable (url : AnyHttpUrl)

theorem splitNetloc_append {netloc tail : List Char} (hnetloc : netloc.all (!isDelimiter ·) = true)
    (htail : tail.head?.all isDelimiter = true) :
    splitNetloc ('/' :: '/' :: (netloc ++ tail)) = netloc := by
  have hplain : ∀ c ∈ netloc, decide (c ≠ '/' ∧ c ≠ '?' ∧ c ≠ '#') = true := by
    intro c hc
    have hdelimiter := List.all_eq_true.mp hnetloc c hc
    simpa [isDelimiter, and_assoc] using hdelimiter
  rw [splitNetloc, List.takeWhile_append_of_pos hplain]
  cases tail with
  | nil => exact List.append_nil _
  | cons c cs =>
    have hdelimiter : isDelimiter c = true := htail
    have hstop : ¬ (c ≠ '/' ∧ c ≠ '?' ∧ c ≠ '#') := by
      simp only [isDelimiter, Bool.or_eq_true, beq_iff_eq] at hdelimiter
      tauto
    rw [List.takeWhile_cons_of_neg (by simpa using hstop), List.append_nil]

theorem splitScheme_append (tail : String) :
    splitScheme (url.scheme.text ++ "://" ++ url.netloc ++ tail).toList =
      (url.scheme.text.toList, '/' :: '/' :: (url.netloc.toList ++ tail.toList)) := by
  cases url.scheme with
  | http => simp [splitScheme, HttpScheme.text, isSchemeChar]
  | https => simp [splitScheme, HttpScheme.text, isSchemeChar]

theorem readUrl_append {tail : String} (htail : tail.toList.head?.all isDelimiter = true) :
    readUrl (url.scheme.text ++ "://" ++ url.netloc ++ tail) = ⟨url.scheme.text, url.netloc⟩ := by
  rw [readUrl, splitScheme_append]
  dsimp only
  rw [splitNetloc_append url.netloc_plain htail, String.ofList_toList, String.ofList_toList]

theorem rdropWhile_append {p : Char → Bool} {xs ys : List Char}
    (h : ∀ hl : xs ≠ [], ¬ p (xs.getLast hl) = true) :
    (xs ++ ys).rdropWhile p = xs ++ ys.rdropWhile p := by
  induction ys using List.reverseRecOn with
  | nil => rw [List.append_nil, List.rdropWhile_nil, List.append_nil,
      List.rdropWhile_eq_self_iff.mpr h]
  | append_singleton ys y ih =>
    rw [← List.append_assoc, List.rdropWhile_concat, List.rdropWhile_concat]
    split
    · exact ih
    · exact List.append_assoc _ _ _

theorem head?_prefix {p : Char → Bool} {xs ys : List Char} (h : xs <+: ys)
    (hys : ys.head?.all p = true) : xs.head?.all p = true := by
  obtain ⟨zs, rfl⟩ := h
  cases xs with
  | nil => rfl
  | cons x xs => exact hys

/-- Slashes are only taken off the path. -/
theorem rstripSlash_text : ∃ rest : String, rest.toList.head?.all isDelimiter = true ∧
    rstripSlash url.text = url.scheme.text ++ "://" ++ url.netloc ++ rest := by
  have hlast : ∀ hl : (url.scheme.text ++ "://" ++ url.netloc).toList ≠ [],
      ¬ decide ((url.scheme.text ++ "://" ++ url.netloc).toList.getLast hl = '/') = true := by
    intro hl hslash
    have hne : url.netloc.toList ≠ [] := by
      rw [ne_eq, String.toList_eq_nil_iff]
      exact url.netloc_nonempty
    simp only [String.toList_append] at hslash
    rw [List.getLast_append_of_ne_nil _ hne, decide_eq_true_eq] at hslash
    have hplain := List.all_eq_true.mp url.netloc_plain _ (List.getLast_mem hne)
    rw [hslash] at hplain
    cases hplain
  refine ⟨String.ofList (url.rest.toList.rdropWhile (· = '/')), ?_, ?_⟩
  · rw [String.toList_ofList]
    exact head?_prefix (List.rdropWhile_prefix _ _) url.rest_delimited
  · rw [rstripSlash, AnyHttpUrl.text, String.toList_append, rdropWhile_append hlast,
      String.ofList_append, String.ofList_toList]

/-- What replaces the slashes at the end leaves scheme and authority as they are. -/
theorem readUrl_rstripSlash (suffix : String) :
    readUrl (rstripSlash url.text ++ "/" ++ suffix) = ⟨url.scheme.text, url.netloc⟩ := by
  obtain ⟨rest, hrest, htext⟩ := rstripSlash_text url
  rw [htext, String.append_assoc, String.append_assoc]
  refine readUrl_append url ?_
  rw [String.toList_append]
  cases hchars : rest.toList with
  | nil => simp [isDelimiter]
  | cons c cs =>
    rw [hchars] at hrest
    exact hrest

/-- Without a colon it is a path. -/
theorem mergeUrl_path (base : String) {path : String} (h : ':' ∉ path.toList) :
    mergeUrl base path = readUrl base := by
  have hnone : path.toList.dropWhile (· ≠ ':') = [] := by
    refine List.dropWhile_eq_nil_iff.mpr fun c hc => ?_
    exact decide_eq_true fun hcolon => h (hcolon ▸ hc)
  have hsplit : splitScheme path.toList = ([], path.toList) := by
    rw [splitScheme, hnone]
  rw [mergeUrl, if_neg]
  rintro ⟨hscheme, -⟩
  rw [readUrl, hsplit] at hscheme
  exact hscheme rfl

end Httpx

section Example

open Ascii

example : (urlparse "HTTPS://me@Login.MicrosoftOnline.com:443/keys").map (fun u =>
    (u.scheme, u.hostname)) = .ok ("https", some "login.microsoftonline.com") := by decide +kernel

end Example

end EmployeePortal.Python
