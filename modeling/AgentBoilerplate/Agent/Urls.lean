import AgentBoilerplate.Python.UrlParse
import Mathlib.Data.List.Sort

namespace AgentBoilerplate.Agent

open Python UrlParse

-- Query parameters that identify campaigns and clicks.
def trackingExact : List String :=
  ["gclid", "fbclid", "igshid", "msclkid", "twclid", "yclid", "mc_cid", "mc_eid", "ref", "ref_src",
    "spm", "s_kwcid"]

def trackingPrefixes : List String := ["utm_"]

def isTracking [Unicode] (name : List Char) : Bool :=
  let lowered := Unicode.lower name
  (trackingExact.any fun exact => lowered = exact.toList) ∨
    trackingPrefixes.any fun known => known.toList.isPrefixOf lowered

def defaultPort (scheme : List Char) : Option Nat :=
  if scheme = "http".toList then some 80
  else if scheme = "https".toList then some 443
  else none

-- What `normalize_url` writes of a URL that is split, but for its host and port.
def canonicalPath (path : List Char) : List Char :=
  let path := if path = [] then ['/'] else path
  if path.length > 1 ∧ path.getLast? = some '/' then path.rdropWhile (· = '/') else path

def canonicalQuery [Unicode] (query : List Char) : List Char :=
  urlencode (((parseQsl query).filter fun field => ¬ isTracking field.1).insertionSort
    fun a b => Str.pairLe a b)

-- The port is read outside the `try`, so a bad port raises.
def normalizeChars [Unicode] (url : List Char) : Except PyException (List Char) :=
  match urlsplit (Str.strip Str.isSpace url) with
  | .error _ => .ok url
  | .ok parts =>
      match parts.hostname with
      | none => .ok url
      | some host =>
          if parts.scheme = [] then
            .ok url
          else do
            let scheme := Unicode.lower parts.scheme
            let netloc := Unicode.lower host
            let port ← parts.port
            let netloc := match port with
              | none => netloc
              | some port =>
                  if some port = defaultPort scheme then netloc
                  else netloc ++ [':'] ++ Nat.toDigits 10 port
            return urlunsplit scheme netloc (canonicalPath parts.path) (canonicalQuery parts.query)

-- The canonical comparison key of a result URL.
def normalizeUrl [Unicode] (url : String) : Except PyException String :=
  (normalizeChars url.toList).map String.ofList

end AgentBoilerplate.Agent
