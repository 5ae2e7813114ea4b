import AppNG.Lib.JavaString
import AppNG.Messaging.ClusterState

/-!
# Http.PrimaryDomain

`Controller.doGet`: how a request is answered, and when it is redirected to the primary domain of its site.

The server name is compared with the beginning of the primary domain, once for each scheme. Only the first
comparison is negated.

* `redirected_iff`: when a request is redirected.
* `primaryDomain_iff`: a request is redirected if and only if its server name is not the host of the primary domain,
  where the scheme is `https`, exactly for the other server names; where it is `http`, exactly for the host and
  for names that the host and the port do not begin with.
-/

namespace AppNG
namespace Http
namespace PrimaryDomain

open Messaging (SiteState)

/-! ## The code -/

structure Redirect where
  statusCode : Nat
  location : String
  /-- The header `Connection`. -/
  close : Bool
  deriving DecidableEq, Repr

def startsWith (s start : String) : Bool := start.toList.isPrefixOf s.toList

def movedPermanently : Nat := 301

/-- `Redirect.to` -/
def Redirect.to (statusCode : Nat) (target : String) : Redirect where
  statusCode
  location := target
  close := statusCode == movedPermanently && !startsWith target "/"

structure SiteProperties where
  enforcePrimaryDomain : Option Bool := none
  defaultPage : String
  loadingScreen : Option String := none
  maintenanceScreen : Option String := none

structure Site where
  state : SiteState
  domain : String
  properties : SiteProperties

structure PlatformProperties where
  maintenanceScreen : Option String := none
  templatePrefix : String

/-- What `PathInfo` says of the servlet path. -/
structure PathInfo where
  documentDirectories : List String := []
  isMonitoring : Bool := false
  isDocument : Bool := false
  isStaticContent : Bool := false
  isGui : Bool := false
  isService : Bool := false
  isJsp : Bool := false

structure Request where
  serverName : String
  servletPath : String
  pathInfo : PathInfo

inductive RequestHandler where
  | staticContent
  | gui
  | service
  | jsp
  | errorPage
  deriving DecidableEq, Repr

inductive Answer where
  | notFound
  | monitoring
  /-- None: the one of the platform. -/
  | loadingScreen (screen : Option String)
  | maintenanceScreen (screen : Option String)
  | primaryDomain (redirect : Redirect)
  | defaultPage (redirect : Redirect)
  /-- There is no document directory. -/
  | nothing
  | handled (requestHandler : RequestHandler)
  deriving DecidableEq, Repr

def schemeHttps : String := "https://"

def schemeHttp : String := "http://"

def notBlank (s : Option String) : Option String := if Java.isBlank s then none else s

/-- The condition under which `doGet` redirects to the primary domain. -/
def leavesPrimaryDomain (primaryDomain serverName : String) : Bool :=
  !startsWith primaryDomain (schemeHttp ++ serverName) || startsWith primaryDomain (schemeHttps ++ serverName)

def requestHandler (templatePrefix : String) (request : Request) : RequestHandler :=
  let pathInfo := request.pathInfo
  if pathInfo.isDocument || pathInfo.isStaticContent || startsWith request.servletPath templatePrefix then
    .staticContent
  else if pathInfo.isGui then .gui
  else if pathInfo.isService then .service
  else if pathInfo.isJsp then .jsp
  else .errorPage

/-- None: there is no site for the request. -/
def doGet (platformProperties : PlatformProperties) (site : Option Site) (request : Request) : Answer :=
  match site with
  | none => .notFound
  | some site =>
    if request.pathInfo.isMonitoring then .monitoring
    else if site.state = .starting then .loadingScreen (notBlank site.properties.loadingScreen)
    else if site.state ∉ [SiteState.started, .suspended] then
      .maintenanceScreen
        (notBlank (site.properties.maintenanceScreen.orElse fun _ => platformProperties.maintenanceScreen))
    else if site.properties.enforcePrimaryDomain.getD false && leavesPrimaryDomain site.domain request.serverName then
      .primaryDomain (Redirect.to movedPermanently site.domain)
    else if request.servletPath == "/" || Java.isBlank (some request.servletPath) then
      match request.pathInfo.documentDirectories with
      | [] => .nothing
      | documentDirectory :: _ =>
        .defaultPage (Redirect.to movedPermanently (documentDirectory ++ "/" ++ site.properties.defaultPage))
    else .handled (requestHandler platformProperties.templatePrefix request)

/-! ## Primary domains -/

inductive Scheme where
  | http
  | https
  deriving DecidableEq, Repr

def Scheme.text : Scheme → String
  | .http => schemeHttp
  | .https => schemeHttps

structure Domain where
  scheme : Scheme
  host : String
  port : Option Nat

namespace Domain

variable (domain : Domain)

def authority : String :=
  match domain.port with
  | none => domain.host
  | some port => domain.host ++ ":" ++ toString port

def url : String := domain.scheme.text ++ domain.authority

theorem startsWith_authority_host : startsWith domain.authority domain.host = true := by
  rw [startsWith, List.isPrefixOf_iff_prefix, authority]
  cases domain.port with
  | none => exact List.prefix_rfl
  | some port =>
    show _ <+: (domain.host ++ ":" ++ toString port).toList
    rw [String.append_assoc, String.toList_append]
    exact List.prefix_append _ _

end Domain

/-- The primary domain is enforced for the request: its site is there, and up. -/
structure Enforced (site : Site) (request : Request) : Prop where
  up : site.state = .started ∨ site.state = .suspended
  answered : request.pathInfo.isMonitoring = false
  enforce : site.properties.enforcePrimaryDomain = some true

/-- No other server name than the host is taken for it, and the host is. -/
def Told (domain : Domain) (serverName : String) : Prop :=
  match domain.scheme with
  | .https => serverName ≠ domain.host
  | .http => serverName = domain.host ∨ startsWith domain.authority serverName = false

/-! ## The redirect -/

variable {platformProperties : PlatformProperties} {site : Site} {request : Request} {domain : Domain}

/-- Nothing else redirects there. -/
theorem redirected_iff (h : Enforced site request) :
    doGet platformProperties (some site) request = .primaryDomain (Redirect.to movedPermanently site.domain) ↔
      leavesPrimaryDomain site.domain request.serverName = true := by
  have hstarting : site.state ≠ .starting := by
    rcases h.up with hup | hup
    · simp [hup]
    · simp [hup]
  have hup : ¬ site.state ∉ [SiteState.started, .suspended] := by
    rcases h.up with hup | hup
    · simp [hup]
    · simp [hup]
  rw [doGet]
  simp only [h.answered, Bool.false_eq_true, if_false, if_neg hstarting, if_neg hup, h.enforce, Option.getD_some,
    Bool.true_and]
  cases leavesPrimaryDomain site.domain request.serverName with
  | true => simp
  | false =>
    simp only [Bool.false_eq_true, if_false, iff_false]
    split
    · split
      · simp
      · simp
    · simp

theorem startsWith_append (s t u : String) : startsWith (s ++ t) (s ++ u) = startsWith t u := by
  rw [startsWith, startsWith, Bool.eq_iff_iff, List.isPrefixOf_iff_prefix, List.isPrefixOf_iff_prefix,
    String.toList_append, String.toList_append, List.prefix_append_right_inj]

/-- The schemes end differently. -/
theorem startsWith_other (s t : String) :
    startsWith (schemeHttp ++ s) (schemeHttps ++ t) = false ∧
      startsWith (schemeHttps ++ s) (schemeHttp ++ t) = false := by
  constructor
  · simp [startsWith, schemeHttp, schemeHttps, List.isPrefixOf]
  · simp [startsWith, schemeHttp, schemeHttps, List.isPrefixOf]

theorem leavesPrimaryDomain_url (domain : Domain) (serverName : String) :
    leavesPrimaryDomain domain.url serverName = true ↔
      (domain.scheme = .http → startsWith domain.authority serverName = false) := by
  rw [leavesPrimaryDomain, Domain.url]
  cases domain.scheme with
  | http =>
    rw [Scheme.text, startsWith_append, (startsWith_other domain.authority serverName).1]
    simp
  | https =>
    rw [Scheme.text, (startsWith_other domain.authority serverName).2]
    simp

theorem primaryDomain_iff (h : Enforced site request) (hdomain : site.domain = domain.url) :
    (doGet platformProperties (some site) request = .primaryDomain (Redirect.to movedPermanently site.domain) ↔
      request.serverName ≠ domain.host) ↔ Told domain request.serverName := by
  have hhost : request.serverName = domain.host → startsWith domain.authority request.serverName = true := by
    intro heq
    rw [heq]
    exact domain.startsWith_authority_host
  rw [redirected_iff h, hdomain, leavesPrimaryDomain_url, Told]
  cases domain.scheme with
  | https => simp
  | http =>
    simp only [true_implies]
    constructor
    · intro hiff
      by_cases heq : request.serverName = domain.host
      · exact .inl heq
      · exact .inr (hiff.mpr heq)
    · rintro (heq | hnot)
      · simp [heq, domain.startsWith_authority_host]
      · refine iff_of_true hnot fun heq => ?_
        rw [hhost heq] at hnot
        cases hnot

def sampleSite (domain : String) : Site where
  state := .started
  domain
  properties := { enforcePrimaryDomain := some true, defaultPage := "index" }

def sampleRequest (serverName : String) : Request where
  serverName
  servletPath := "/de/index"
  pathInfo := { isDocument := true }

theorem redirects_other_host :
    Enforced (sampleSite "https://example.com") (sampleRequest "example.org") ∧
      (doGet { templatePrefix := "/template" } (some (sampleSite "https://example.com")) (sampleRequest "example.org") =
          .primaryDomain (Redirect.to movedPermanently "https://example.com") ↔ "example.org" ≠ "example.com") :=
  have h : Enforced (sampleSite "https://example.com") (sampleRequest "example.org") := ⟨.inl rfl, rfl, rfl⟩
  have hurl : (sampleSite "https://example.com").domain = Domain.url ⟨.https, "example.com", none⟩ := rfl
  ⟨h, (primaryDomain_iff h hurl).mpr (by decide : "example.org" ≠ "example.com")⟩

/-- With `https` a request for the primary domain itself is redirected, and with `http` one for a name that the
host begins with is not. -/
theorem redirects_wrongly :
    doGet { templatePrefix := "/template" } (some (sampleSite "https://example.com")) (sampleRequest "example.com") =
        .primaryDomain (Redirect.to movedPermanently "https://example.com") ∧
      doGet { templatePrefix := "/template" } (some (sampleSite "http://www.example.com")) (sampleRequest "www") =
        .handled .staticContent := by
  constructor
  · decide +kernel
  · decide +kernel

end PrimaryDomain
end Http
end AppNG
