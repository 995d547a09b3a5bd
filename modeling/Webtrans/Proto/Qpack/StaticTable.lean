import Webtrans.Proto.Qpack.Prefix

namespace Webtrans.Proto.Qpack

open Webtrans.Data

/-! The static table (`webtrans-proto/src/qpack.rs`). -/

/-- A field name with its value. -/
abbrev Field := (_ : String) × String

def predefinedHeaders : List Field := [
  ⟨":authority", ""⟩,
  ⟨":path", "/"⟩,
  ⟨"age", "0"⟩,
  ⟨"content-disposition", ""⟩,
  ⟨"content-length", "0"⟩,
  ⟨"cookie", ""⟩,
  ⟨"date", ""⟩,
  ⟨"etag", ""⟩,
  ⟨"if-modified-since", ""⟩,
  ⟨"if-none-match", ""⟩,
  ⟨"last-modified", ""⟩,
  ⟨"link", ""⟩,
  ⟨"location", ""⟩,
  ⟨"referer", ""⟩,
  ⟨"set-cookie", ""⟩,
  ⟨":method", "CONNECT"⟩,
  ⟨":method", "DELETE"⟩,
  ⟨":method", "GET"⟩,
  ⟨":method", "HEAD"⟩,
  ⟨":method", "OPTIONS"⟩,
  ⟨":method", "POST"⟩,
  ⟨":method", "PUT"⟩,
  ⟨":scheme", "http"⟩,
  ⟨":scheme", "https"⟩,
  ⟨":status", "103"⟩,
  ⟨":status", "200"⟩,
  ⟨":status", "304"⟩,
  ⟨":status", "404"⟩,
  ⟨":status", "503"⟩,
  ⟨"accept", "*/*"⟩,
  ⟨"accept", "application/dns-message"⟩,
  ⟨"accept-encoding", "gzip, deflate, br"⟩,
  ⟨"accept-ranges", "bytes"⟩,
  ⟨"access-control-allow-headers", "cache-control"⟩,
  ⟨"access-control-allow-headers", "content-type"⟩,
  ⟨"access-control-allow-origin", "*"⟩,
  ⟨"cache-control", "max-age=0"⟩,
  ⟨"cache-control", "max-age=2592000"⟩,
  ⟨"cache-control", "max-age=604800"⟩,
  ⟨"cache-control", "no-cache"⟩,
  ⟨"cache-control", "no-store"⟩,
  ⟨"cache-control", "public, max-age=31536000"⟩,
  ⟨"content-encoding", "br"⟩,
  ⟨"content-encoding", "gzip"⟩,
  ⟨"content-type", "application/dns-message"⟩,
  ⟨"content-type", "application/javascript"⟩,
  ⟨"content-type", "application/json"⟩,
  ⟨"content-type", "application/x-www-form-urlencoded"⟩,
  ⟨"content-type", "image/gif"⟩,
  ⟨"content-type", "image/jpeg"⟩,
  ⟨"content-type", "image/png"⟩,
  ⟨"content-type", "text/css"⟩,
  ⟨"content-type", "text/html; charset=utf-8"⟩,
  ⟨"content-type", "text/plain"⟩,
  ⟨"content-type", "text/plain;charset=utf-8"⟩,
  ⟨"range", "bytes=0-"⟩,
  ⟨"strict-transport-security", "max-age=31536000"⟩,
  ⟨"strict-transport-security", "max-age=31536000; includesubdomains"⟩,
  ⟨"strict-transport-security", "max-age=31536000; includesubdomains; preload"⟩,
  ⟨"vary", "accept-encoding"⟩,
  ⟨"vary", "origin"⟩,
  ⟨"x-content-type-options", "nosniff"⟩,
  ⟨"x-xss-protection", "1; mode=block"⟩,
  ⟨":status", "100"⟩,
  ⟨":status", "204"⟩,
  ⟨":status", "206"⟩,
  ⟨":status", "302"⟩,
  ⟨":status", "400"⟩,
  ⟨":status", "403"⟩,
  ⟨":status", "421"⟩,
  ⟨":status", "425"⟩,
  ⟨":status", "500"⟩,
  ⟨"accept-language", ""⟩,
  ⟨"access-control-allow-credentials", "FALSE"⟩,
  ⟨"access-control-allow-credentials", "TRUE"⟩,
  ⟨"access-control-allow-headers", "*"⟩,
  ⟨"access-control-allow-methods", "get"⟩,
  ⟨"access-control-allow-methods", "get, post, options"⟩,
  ⟨"access-control-allow-methods", "options"⟩,
  ⟨"access-control-expose-headers", "content-length"⟩,
  ⟨"access-control-request-headers", "content-type"⟩,
  ⟨"access-control-request-method", "get"⟩,
  ⟨"access-control-request-method", "post"⟩,
  ⟨"alt-svc", "clear"⟩,
  ⟨"authorization", ""⟩,
  ⟨"content-security-policy", "script-src 'none'; object-src 'none'; base-uri 'none'"⟩,
  ⟨"early-data", "1"⟩,
  ⟨"expect-ct", ""⟩,
  ⟨"forwarded", ""⟩,
  ⟨"if-range", ""⟩,
  ⟨"origin", ""⟩,
  ⟨"purpose", "prefetch"⟩,
  ⟨"server", ""⟩,
  ⟨"timing-allow-origin", "*"⟩,
  ⟨"upgrade-insecure-requests", "1"⟩,
  ⟨"user-agent", ""⟩,
  ⟨"x-forwarded-for", ""⟩,
  ⟨"x-frame-options", "deny"⟩,
  ⟨"x-frame-options", "sameorigin"⟩]

structure StaticMatch where
  exact : Option Nat
  name : Option Nat
deriving DecidableEq, Repr

namespace StaticTable

def get (index : Nat) : Except DecodeError Field :=
  match predefinedHeaders[index]? with
  | some entry => .ok entry
  | none => .error .unknownEntry

def lookupLoop (name value : String) (index : Nat) (nameIndex : Option Nat) : List Field → StaticMatch
  | [] => { exact := none, name := nameIndex }
  | ⟨entryName, entryValue⟩ :: entries =>
      if entryName ≠ name then lookupLoop name value (index + 1) nameIndex entries
      else
        let nameIndex := if nameIndex.isNone then some index else nameIndex
        if entryValue = value then { exact := some index, name := nameIndex }
        else lookupLoop name value (index + 1) nameIndex entries

/-- The first entry of the name, and the first of the name with the value. -/
def lookup (name value : String) : StaticMatch :=
  lookupLoop name value 0 none predefinedHeaders

theorem lookupLoop_found {table entries : List Field} {name value : String} {index : Nat}
    {nameIndex : Option Nat} (here : table.drop index = entries)
    (named : ∀ i, nameIndex = some i → ∃ entryValue, table[i]? = some ⟨name, entryValue⟩) :
    (∀ i, (lookupLoop name value index nameIndex entries).exact = some i → table[i]? = some ⟨name, value⟩) ∧
      ∀ i, (lookupLoop name value index nameIndex entries).name = some i →
        ∃ entryValue, table[i]? = some ⟨name, entryValue⟩ := by
  induction entries generalizing index nameIndex with
  | nil =>
      refine ⟨?_, named⟩
      intro i found
      cases found
  | cons entry entries ih =>
      obtain ⟨entryName, entryValue⟩ := entry
      have current : table[index]? = some ⟨entryName, entryValue⟩ := by
        rw [← List.head?_drop, here]
        rfl
      have behind : table.drop (index + 1) = entries := by
        rw [← List.tail_drop, here]
        rfl
      rw [lookupLoop]
      split
      case isTrue => exact ih behind named
      case isFalse same =>
        rw [ne_eq, not_not] at same
        subst same
        have namedNow : ∀ i, (if nameIndex.isNone then some index else nameIndex) = some i →
            ∃ entryValue, table[i]? = some ⟨entryName, entryValue⟩ := by
          intro i found
          split at found
          · cases found
            exact ⟨entryValue, current⟩
          · exact named i found
        dsimp only
        split
        case isTrue exact =>
          subst exact
          refine ⟨?_, namedNow⟩
          intro i found
          cases found
          exact current
        case isFalse => exact ih behind namedNow

theorem lookup_exact {name value : String} {index : Nat} (found : (lookup name value).exact = some index) :
    predefinedHeaders[index]? = some ⟨name, value⟩ :=
  (lookupLoop_found rfl (by simp)).1 index found

theorem lookup_name {name value : String} {index : Nat} (found : (lookup name value).name = some index) :
    ∃ entryValue, predefinedHeaders[index]? = some ⟨name, entryValue⟩ :=
  (lookupLoop_found rfl (by simp)).2 index found

end StaticTable

end Webtrans.Proto.Qpack
