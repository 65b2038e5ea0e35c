import Remedy.Codemod.Basic
/-!
# Codemods for calls in Java

Three codemods look at the calls of a file: one at the making of random
number generators, one at the protocol of TLS contexts, and one at how
tokens are parsed. A site is left out when the type name that decides is
known to mean another type.
-/

namespace Remedy

namespace Codemod

/-- The trees of a kind that touch a region, if there is one. -/
def treesAt (ctx : CodemodContext) (region : Option Span) (kind : Java.Kind) : List Java.Tree :=
  match ctx.unit.tree? with
  | none => []
  | some tree =>
    let all := (Java.Cursor.ofTree tree).descendants.map Java.Cursor.focus
    all.filter fun t => t.kind = kind && region.all fun r => t.span.touches r

/-- The site at a span, provided that a type name may stand for a type. -/
def siteNeeding (ctx : CodemodContext) (span reference : Span) (fullName : String) : Option Site :=
  if ctx.typeIs reference fullName = .no then none else some ⟨span, [reference]⟩

/-- The text of a tree of the file. -/
def written (ctx : CodemodContext) (t : Java.Tree) : String := t.text ctx.unit.text

/-- The file is one of Java. -/
def isJava (unit : SourceUnit) : Bool := unit.language = .java

/-! ## Random numbers -/

/-- The site of a weak generator: the type behind `new` where there are
neither arguments nor a body. A generator with a seed is taken to be
deliberate, and one with a body cannot change its base. -/
def weakGenerator? (ctx : CodemodContext) (t : Java.Tree) : Option Site := do
  let arguments ← t.child? .arguments
  let type ← t.child? .type
  let name := written ctx type
  if !arguments.namedChildren.isEmpty ∨ t.children.any (·.kind = .classBody) then none
  else if name ≠ "Random" ∧ name ≠ "java.util.Random" then none
  else siteNeeding ctx type.span type.span "java.util.Random"

/-- Replaces a plain random number generator by a secure one. -/
def secureRandom : Codemod where
  id := "pixee:java/secure-random"
  version := "1.0.0"
  summary := "Replace java.util.Random with java.security.SecureRandom"
  priority := 0
  rules := ["java/insecure-randomness", "pixee:java/secure-random"]
  scans := true
  needsResolution := true
  appliesTo := isJava
  locate := fun ctx region =>
    (treesAt ctx region .objectCreationExpression).filterMap (weakGenerator? ctx)
  apply := fun _ site => .ok ⟨site.span, "java.security.SecureRandom",
    some "Switched to a cryptographically strong random number generator"⟩

/-! ## Protocols -/

/-- The protocols that are too old, and the one that stands for all
versions. -/
def weakProtocols : List String := ["SSL", "SSLv2", "SSLv3", "TLS", "TLSv1", "TLSv1.1"]

/-- The protocol that is put in their place, as a literal. -/
def safeProtocol : String := "\"TLSv1.2\""

/-- The site of a weak protocol: the first argument of `getInstance`. -/
def weakProtocol? (ctx : CodemodContext) (t : Java.Tree) : Option Site := do
  let name ← t.child? .name
  let object ← t.child? .object
  let protocol ← (← t.child? .arguments).namedChildren.head?
  let value := Text.trimWith (· = '"') (written ctx protocol)
  if written ctx name ≠ "getInstance" ∨ protocol.kind ≠ .stringLiteral then none
  else if !weakProtocols.contains value then none
  else siteNeeding ctx protocol.span object.span "javax.net.ssl.SSLContext"

/-- Asks for a safe protocol where a weak one is asked for. -/
def safeContext : Codemod where
  id := "pixee:java/upgrade-sslcontext-tls"
  version := "1.0.0"
  summary := "Upgrade SSLContext.getInstance() to TLSv1.2"
  priority := 0
  rules := ["java/weak-ssl-protocol"]
  scans := true
  needsResolution := true
  appliesTo := isJava
  locate := fun ctx region => (treesAt ctx region .methodInvocation).filterMap (weakProtocol? ctx)
  apply := fun ctx site => .ok ⟨site.span, safeProtocol,
    some s!"Replaced protocol {ctx.text site.span} with {safeProtocol}"⟩

/-! ## Tokens -/

/-- The name that a chain of calls starts from by `parser` or
`parserBuilder`. -/
def parserRoot? (ctx : CodemodContext) : Nat → Java.Tree → Option Java.Tree
  | 0, _ => none
  | fuel + 1, t => do
    let object ← t.child? .object
    if object.kind ≠ .methodInvocation then none
    else
      let name := (object.child? .name).map (written ctx)
      let inner ← object.child? .object
      if (name = some "parser" ∨ name = some "parserBuilder") ∧
          (inner.kind = .identifier ∨ inner.kind = .fieldAccess) then some inner
      else parserRoot? ctx fuel object

/-- The site of a parse that takes unsigned tokens too: the name of the
call. -/
def uncheckedParse? (ctx : CodemodContext) (t : Java.Tree) : Option Site := do
  let name ← t.child? .name
  let root ← parserRoot? ctx t.size t
  if written ctx name ≠ "parse" then none
  else siteNeeding ctx name.span root.span "io.jsonwebtoken.Jwts"

/-- Checks the signature of a token where it is parsed. It acts on findings
only. -/
def checkedParse : Codemod where
  id := "pixee:java/missing-jwt-signature-check"
  version := "1.0.0"
  summary := "Switch JWT parsing to the signature-verifying parseClaimsJws()"
  priority := 0
  rules := ["java/missing-jwt-signature-check",
    "java.lang.security.audit.jwt-decode-without-verify"]
  scans := false
  needsResolution := true
  appliesTo := isJava
  locate := fun ctx region => (treesAt ctx region .methodInvocation).filterMap (uncheckedParse? ctx)
  apply := fun ctx site =>
    if ctx.unit.slice? site.span = some "parse" then
      .ok ⟨site.span, "parseClaimsJws", some "Parse the JWT with signature verification"⟩
    else .error (.causes [s!"expected a `parse` call at {site.span.start}..{site.span.stop}"])

end Codemod

end Remedy
