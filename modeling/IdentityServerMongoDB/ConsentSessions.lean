import IdentityServerMongoDB.ConsentService
import Mathlib.Data.List.Induction

namespace IdentityServerMongoDB

/-- What is done with a consent page: the boxes that are ticked, by their place, whether the
decision is to be remembered, and the button. -/
structure ConsentInput where
  ticked : Nat → Bool
  remember : Bool
  button : Option String

def ConsentViewModel.items (vm : ConsentViewModel) : List ScopeViewModel :=
  vm.identityScopes ++ vm.resourceScopes

/-- The scopes the form sends. The box of a required one is disabled, and a hidden field
sends it. -/
def ConsentViewModel.selected (vm : ConsentViewModel) (input : ConsentInput) :
    List ScopeViewModel :=
  (vm.items.zipIdx.filter (fun x => x.1.required || input.ticked x.2)).map Prod.fst

/-- The form of the consent page, as it is bound when it is posted. -/
def ConsentViewModel.submit (vm : ConsentViewModel) (input : ConsentInput) : ConsentInputModel where
  button := input.button
  scopesConsented :=
    match (vm.selected input).map ScopeViewModel.name with
    | [] => none
    | names => some names
  rememberConsent := vm.allowRememberConsent && input.remember
  returnUrl := vm.returnUrl

/-- A form that is posted, and the server as it is then. -/
structure ConsentPost (lib : IdentityServerModels) where
  options : ConsentOptions
  host : ConsentHost lib
  input : ConsentInput

structure ConsentSession where
  page : Except Exception ConsentAction
  granted : List (AuthorizationRequest × ConsentResponse) := []

section Session

variable {lib : IdentityServerModels}

/-- Only a page with the form on it can be posted. -/
def ConsentSession.post (session : ConsentSession) (post : ConsentPost lib) : ConsentSession :=
  match session.page with
  | .ok (.view vm _) =>
    let (granted, page) := indexPost post.options post.host (some (vm.submit post.input))
    { page := page, granted := session.granted ++ granted }
  | _ => session

/-- A session from the request for the page on. -/
def consentSession (options : ConsentOptions) (host : ConsentHost lib) (returnUrl : Option String)
    (posts : List (ConsentPost lib)) : ConsentSession :=
  posts.foldl ConsentSession.post { page := indexGet options host returnUrl }

/-- The page is made for the request that the return URL stands for, and has on it the
scopes found for that request. -/
def PageOf (options : ConsentOptions) (host : ConsentHost lib) (returnUrl : Option String)
    (vm : ConsentViewModel) : Prop :=
  ∃ request client resources model,
    host.getAuthorizationContextAsync returnUrl = .ok (some request) ∧
    host.findEnabledClientByIdAsync request.clientId = .ok (some client) ∧
    host.findEnabledResourcesByScopeAsync request.scopeNames = .ok (some resources) ∧
    vm = createConsentViewModel options model returnUrl client resources

/-- What is granted for a page that is posted: a denial, or the scopes on it that are
required or ticked, of which there is one at least, but for offline access where it is
not enabled. -/
inductive Grants (vm : ConsentViewModel) (post : ConsentPost lib) : ConsentResponse → Prop
  | denied : post.input.button = some "no" → Grants vm post { error := some .accessDenied }
  | allowed : post.input.button = some "yes" → vm.selected post.input ≠ [] →
      Grants vm post
        { rememberConsent := vm.allowRememberConsent && post.input.remember
          scopesValuesConsented := some (((vm.selected post.input).map ScopeViewModel.name).filter
            (fun x => post.options.enableOfflineAccess || decide (x ≠ some offlineAccess))) }

/-- Everything a posted form can come to. -/
inductive PostCase (options : ConsentOptions) (host : ConsentHost lib) (model : ConsentInputModel) :
    List (AuthorizationRequest × ConsentResponse) → Except Exception ConsentAction → Prop
  | granted {request response url} : consentResponse options model = .ok response →
      host.getAuthorizationContextAsync model.returnUrl = .ok (some request) →
      model.returnUrl = some url →
      PostCase options host model [(request, response)] (.ok (.redirect url))
  | nowhere {request response} : consentResponse options model = .ok response →
      host.getAuthorizationContextAsync model.returnUrl = .ok (some request) →
      model.returnUrl = none →
      PostCase options host model [(request, response)] (.ok (.errorView none))
  | grantThrew {request response ex} : consentResponse options model = .ok response →
      host.getAuthorizationContextAsync model.returnUrl = .ok (some request) →
      PostCase options host model [(request, response)] (.error ex)
  | redisplayed {message vm} : consentResponse options model = .error message →
      buildViewModelAsync options host model.returnUrl (some model) = .ok (some vm) →
      PostCase options host model [] (.ok (.view vm (some message)))
  | gone {error} : PostCase options host model [] (.ok (.errorView error))
  | threw {ex} : PostCase options host model [] (.error ex)

theorem indexPost_cases (options : ConsentOptions) (host : ConsentHost lib)
    (model : ConsentInputModel) :
    PostCase options host model (indexPost options host (some model)).1
      (indexPost options host (some model)).2 := by
  unfold indexPost
  cases hresponse : consentResponse options model with
  | error message =>
    cases hbuild : buildViewModelAsync options host model.returnUrl (some model) with
    | error ex =>
      simp only [processConsent, hresponse, hbuild]
      exact PostCase.threw
    | ok vm =>
      simp only [processConsent, hresponse, hbuild]
      cases vm with
      | none => exact PostCase.gone
      | some vm => exact PostCase.redisplayed hresponse hbuild
  | ok response =>
    cases hcontext : host.getAuthorizationContextAsync model.returnUrl with
    | error ex =>
      simp only [processConsent, hresponse, hcontext]
      exact PostCase.threw
    | ok request =>
      cases request with
      | none =>
        simp only [processConsent, hresponse, hcontext]
        exact PostCase.gone
      | some request =>
        simp only [processConsent, hresponse, hcontext]
        cases host.grantConsentAsync request response with
        | error ex => exact PostCase.grantThrew hresponse hcontext
        | ok u =>
          cases hurl : model.returnUrl with
          | none => exact PostCase.nowhere hresponse hcontext hurl
          | some url => exact PostCase.granted hresponse hcontext hurl

theorem grants_of_submit {vm : ConsentViewModel} {post : ConsentPost lib} {response : ConsentResponse}
    (h : consentResponse post.options (vm.submit post.input) = .ok response) :
    Grants vm post response := by
  unfold consentResponse at h
  split at h
  next hno =>
    cases Except.ok.inj h
    exact Grants.denied hno
  next =>
    split at h
    next hyes =>
      cases hnames : (vm.selected post.input).map ScopeViewModel.name with
      | nil =>
        simp only [ConsentViewModel.submit, hnames] at h
        cases h
      | cons name names =>
        have hsome : vm.selected post.input ≠ [] := by
          intro hnil
          rw [hnil] at hnames
          cases hnames
        simp only [ConsentViewModel.submit, hnames] at h
        have hgranted := Grants.allowed hyes hsome
        rw [hnames] at hgranted
        cases henabled : post.options.enableOfflineAccess with
        | true =>
          rw [henabled] at h hgranted
          simp only [Bool.true_or, List.filter_true] at hgranted
          cases Except.ok.inj h
          exact hgranted
        | false =>
          rw [henabled] at h hgranted
          simp only [Bool.false_or] at hgranted
          cases Except.ok.inj h
          exact hgranted
    next => cases h

theorem noScopesMatching_ne {request : AuthorizationRequest} {vm : ConsentViewModel} :
    noScopesMatching request ≠ .ok (some vm) := by
  unfold noScopesMatching
  split
  next => simp
  next => simp

theorem ok_of_bind {ε α β : Type} {x : Except ε α} {f : α → Except ε β} {b : β}
    (h : x.bind f = .ok b) : ∃ a, x = .ok a ∧ f a = .ok b := by
  cases x with
  | error e => cases h
  | ok a => exact ⟨a, rfl, h⟩

theorem pageOf_build {options : ConsentOptions} {host : ConsentHost lib} {returnUrl : Option String}
    {model : Option ConsentInputModel} {vm : ConsentViewModel}
    (h : buildViewModelAsync options host returnUrl model = .ok (some vm)) :
    PageOf options host returnUrl vm := by
  obtain ⟨request, hcontext, h⟩ := ok_of_bind h
  cases request with
  | none => cases h
  | some request =>
    obtain ⟨client, hclient, h⟩ := ok_of_bind h
    cases client with
    | none => cases h
    | some client =>
      obtain ⟨resources, hresources, h⟩ := ok_of_bind h
      cases resources with
      | none => exact absurd h noScopesMatching_ne
      | some resources =>
        simp only at h
        split at h
        next => exact absurd h noScopesMatching_ne
        next =>
          cases Except.ok.inj h
          exact ⟨request, client, resources, model, hcontext, hclient, hresources, rfl⟩

/-- What holds of a session in which these forms have been posted. -/
structure SessionSound (options : ConsentOptions) (host : ConsentHost lib)
    (returnUrl : Option String) (posts : List (ConsentPost lib)) (session : ConsentSession) :
    Prop where
  shown : ∀ vm error, session.page = .ok (.view vm error) → session.granted = [] ∧
    ∃ server ∈ (options, host) :: posts.map (fun p => (p.options, p.host)),
      PageOf server.1 server.2 returnUrl vm
  redirected : ∀ url, session.page = .ok (.redirect url) →
    returnUrl = some url ∧ session.granted ≠ []
  once : session.granted.length ≤ 1
  granted : ∀ request response, (request, response) ∈ session.granted →
    ∃ before post after vm error, posts = before ++ post :: after ∧
      (consentSession options host returnUrl before).page = .ok (.view vm error) ∧
      post.host.getAuthorizationContextAsync returnUrl = .ok (some request) ∧
      Grants vm post response

theorem consentSession_concat (options : ConsentOptions) (host : ConsentHost lib)
    (returnUrl : Option String) (posts : List (ConsentPost lib)) (post : ConsentPost lib) :
    consentSession options host returnUrl (posts ++ [post]) =
      (consentSession options host returnUrl posts).post post := by
  unfold consentSession
  rw [List.foldl_append]
  rfl

theorem post_of_view {session : ConsentSession} {vm : ConsentViewModel} {error : Option String}
    (h : session.page = .ok (.view vm error)) (post : ConsentPost lib) :
    (session.post post).page = (indexPost post.options post.host (some (vm.submit post.input))).2 ∧
      (session.post post).granted = session.granted ++
        (indexPost post.options post.host (some (vm.submit post.input))).1 := by
  unfold ConsentSession.post
  rw [h]
  exact ⟨rfl, rfl⟩

theorem post_of_not_view {session : ConsentSession}
    (h : ∀ vm error, session.page ≠ .ok (.view vm error)) (post : ConsentPost lib) :
    session.post post = session := by
  unfold ConsentSession.post
  split
  next vm error hview => exact absurd hview (h vm error)
  next => rfl

theorem pageOf_returnUrl {options : ConsentOptions} {host : ConsentHost lib}
    {returnUrl : Option String} {vm : ConsentViewModel} (h : PageOf options host returnUrl vm) :
    vm.returnUrl = returnUrl := by
  obtain ⟨request, client, resources, model, _, _, _, rfl⟩ := h
  rfl

section Posted

variable {options : ConsentOptions} {host : ConsentHost lib} {returnUrl : Option String}
  {posts : List (ConsentPost lib)} {post : ConsentPost lib} {session : ConsentSession}

/-- Behind a page without the form nothing changes any more. -/
theorem SessionSound.over (h : SessionSound options host returnUrl posts session)
    (hview : ∀ vm error, session.page ≠ .ok (.view vm error)) :
    SessionSound options host returnUrl (posts ++ [post]) session := by
  refine ⟨?_, h.redirected, h.once, ?_⟩
  · intro vm error hpage
    exact absurd hpage (hview vm error)
  · intro request response hmem
    obtain ⟨before, q, after, vm, error, rfl, hpage, hcontext, hgrants⟩ :=
      h.granted request response hmem
    exact ⟨before, q, after ++ [post], vm, error, by simp, hpage, hcontext, hgrants⟩

/-- A page on which nothing has been granted, and nothing is. -/
theorem SessionSound.of_nothing {page : Except Exception ConsentAction}
    (shown : ∀ vm error, page = .ok (.view vm error) →
      PageOf post.options post.host returnUrl vm)
    (stays : ∀ url, page ≠ .ok (.redirect url)) :
    SessionSound options host returnUrl (posts ++ [post]) { page := page } := by
  refine ⟨?_, ?_, Nat.zero_le 1, ?_⟩
  · intro vm error hpage
    exact ⟨rfl, (post.options, post.host), by simp, shown vm error hpage⟩
  · intro url hpage
    exact absurd hpage (stays url)
  · intro request response hmem
    cases hmem

/-- Something is granted, for the page that was posted. -/
theorem SessionSound.of_grant {page : Except Exception ConsentAction} {vm : ConsentViewModel}
    {error : Option String} {request : AuthorizationRequest} {response : ConsentResponse}
    (hbefore : (consentSession options host returnUrl posts).page = .ok (.view vm error))
    (hcontext : post.host.getAuthorizationContextAsync returnUrl = .ok (some request))
    (hgrants : Grants vm post response) (hidden : ∀ vm error, page ≠ .ok (.view vm error))
    (redirected : ∀ url, page = .ok (.redirect url) → returnUrl = some url) :
    SessionSound options host returnUrl (posts ++ [post])
      { page := page, granted := [(request, response)] } := by
  refine ⟨?_, ?_, Nat.le_refl 1, ?_⟩
  · intro vm error hpage
    exact absurd hpage (hidden vm error)
  · intro url hpage
    exact ⟨redirected url hpage, List.cons_ne_nil _ _⟩
  · intro r q hmem
    cases List.mem_singleton.mp hmem
    exact ⟨posts, post, [], vm, error, rfl, hbefore, hcontext, hgrants⟩

theorem SessionSound.of_post {vm : ConsentViewModel} {error : Option String}
    {granted : List (AuthorizationRequest × ConsentResponse)}
    {page : Except Exception ConsentAction}
    (hbefore : (consentSession options host returnUrl posts).page = .ok (.view vm error))
    (hurl : (vm.submit post.input).returnUrl = returnUrl)
    (h : PostCase post.options post.host (vm.submit post.input) granted page) :
    SessionSound options host returnUrl (posts ++ [post]) ⟨page, granted⟩ := by
  cases h with
  | granted hresponse hcontext hto =>
    rw [hurl] at hcontext hto
    refine SessionSound.of_grant hbefore hcontext (grants_of_submit hresponse) (by simp) ?_
    intro url hpage
    cases hpage
    exact hto
  | nowhere hresponse hcontext =>
    rw [hurl] at hcontext
    exact SessionSound.of_grant hbefore hcontext (grants_of_submit hresponse) (by simp) (by simp)
  | grantThrew hresponse hcontext =>
    rw [hurl] at hcontext
    exact SessionSound.of_grant hbefore hcontext (grants_of_submit hresponse) (by simp) (by simp)
  | redisplayed _ hbuild =>
    rw [hurl] at hbuild
    refine SessionSound.of_nothing ?_ (by simp)
    intro vm error hpage
    cases hpage
    exact pageOf_build hbuild
  | gone => exact SessionSound.of_nothing (by simp) (by simp)
  | threw => exact SessionSound.of_nothing (by simp) (by simp)

/-- Before anything is posted there is the page that was asked for, if any. -/
theorem SessionSound.start (options : ConsentOptions) (host : ConsentHost lib)
    (returnUrl : Option String) :
    SessionSound options host returnUrl [] { page := indexGet options host returnUrl } := by
  unfold indexGet
  cases hbuild : buildViewModelAsync options host returnUrl none with
  | error ex => exact ⟨by simp [Except.map], by simp [Except.map], Nat.zero_le 1, by simp⟩
  | ok built =>
    cases built with
    | none => exact ⟨by simp [Except.map], by simp [Except.map], Nat.zero_le 1, by simp⟩
    | some built =>
      refine ⟨?_, by simp [Except.map], Nat.zero_le 1, by simp⟩
      intro vm error hpage
      simp only [Except.map, Except.ok.injEq, ConsentAction.view.injEq] at hpage
      obtain ⟨rfl, _⟩ := hpage
      exact ⟨rfl, (options, host), List.mem_cons_self, pageOf_build hbuild⟩

theorem SessionSound.step
    (h : SessionSound options host returnUrl posts (consentSession options host returnUrl posts)) :
    SessionSound options host returnUrl (posts ++ [post])
      ((consentSession options host returnUrl posts).post post) := by
  by_cases hview : ∃ vm error,
      (consentSession options host returnUrl posts).page = .ok (.view vm error)
  · obtain ⟨vm, error, hpage⟩ := hview
    obtain ⟨hnone, server, _, hof⟩ := h.shown vm error hpage
    have hurl : (vm.submit post.input).returnUrl = returnUrl := pageOf_returnUrl hof
    obtain ⟨hafter, hgranted⟩ := post_of_view hpage post
    have hsession : (consentSession options host returnUrl posts).post post =
        ⟨(indexPost post.options post.host (some (vm.submit post.input))).2,
          (indexPost post.options post.host (some (vm.submit post.input))).1⟩ := by
      rw [hnone, List.nil_append] at hgranted
      rw [← hafter, ← hgranted]
    rw [hsession]
    exact SessionSound.of_post hpage hurl (indexPost_cases _ _ _)
  · have hnot : ∀ vm error,
        (consentSession options host returnUrl posts).page ≠ .ok (.view vm error) :=
      fun vm error hpage => hview ⟨vm, error, hpage⟩
    rw [post_of_not_view hnot]
    exact h.over hnot

end Posted

/-- However often the form of a consent page is posted, and whatever the server has
become by then: consent is given at most once, and then for the request the return URL
stands for, to what was on the page before, ticked or required; the browser is
sent nowhere but to the return URL, and only once consent or its denial was given. -/
theorem consent_of_session (options : ConsentOptions) (host : ConsentHost lib)
    (returnUrl : Option String) (posts : List (ConsentPost lib)) :
    SessionSound options host returnUrl posts (consentSession options host returnUrl posts) := by
  induction posts using List.reverseRecOn with
  | nil => exact SessionSound.start options host returnUrl
  | append_singleton posts post ih =>
    rw [consentSession_concat]
    exact ih.step

end Session

end IdentityServerMongoDB
