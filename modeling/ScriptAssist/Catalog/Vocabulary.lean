import ScriptAssist.Catalog.Basic

/-!
# The words of the script language

The commands of a script, and the values that the first argument of `browser`
and of `feature` may take.  The order of the entries is the order in which
they are offered.
-/

namespace ScriptAssist

/-- How an entry is shown and inserted by the editor. -/
inductive InsertKind where
  | keyword
  | call
  | snippet
  | value
  deriving DecidableEq, Repr

def InsertKind.isSnippet : InsertKind → Bool
  | .call | .snippet => true
  | .keyword | .value => false

structure Command where
  keyword : String
  -- The command with its arguments, as documentation shows it.
  usage : String
  description : String
  kind : InsertKind
  template : String
  deriving DecidableEq, Repr

structure ArgumentValue where
  value : String
  -- A short remark shown beside the value.
  detail : String
  description : Option String
  kind : InsertKind
  template : String
  deriving DecidableEq, Repr

instance : CatalogEntry Command where
  key := Command.keyword
  template := Command.template

instance : CatalogEntry ArgumentValue where
  key := ArgumentValue.value
  template := ArgumentValue.template

def ArgumentValue.label (entry : ArgumentValue) : String :=
  "\"" ++ entry.value ++ "\""

namespace Vocabulary

/-!
# Words with a role of their own

The first two open and close a passage of JavaScript; only the opener is a
command.  The other two are the commands whose first argument takes one of a
fixed list of values.
-/

def passageOpener : String := "start-javascript"

def passageCloser : String := "end-javascript"

def browserCommand : String := "browser"

def featureCommand : String := "feature"

/-!
# Commands
-/

def commandEntries : List Command :=
  [{ keyword := "browser"
     usage := "browser \"type\""
     description :=
       "Specifies the browser type (chrome/firefox). This must be the first line, "
       ++ "or it will default to firefox."
     kind := .keyword
     template := "browser" },
   { keyword := "feature"
     usage := "feature \"name\" ..."
     description := "Enables specific BAMC features like proxies or SSL settings."
     kind := .keyword
     template := "feature " },
   { keyword := "visit"
     usage := "visit \"url\""
     description := "Instructs BAMM to make a request to the specified url."
     kind := .call
     template := "visit \"$\x7b1:url\x7d\"" },
   { keyword := "wait-for-seconds"
     usage := "wait-for-seconds number"
     description :=
       "Instructs Selenium to pause execution for the specified number of "
       ++ "second(s). Supports decimals/floats for second values (ie. 0.5, .5)."
     kind := .call
     template := "wait-for-seconds $\x7b1:1\x7d" },
   { keyword := "add-header"
     usage := "add-header \"header-name\" \"header-value\""
     description := "Adds a header to the current Selenium session."
     kind := .call
     template := "add-header \"$\x7b1:header-name\x7d\" \"$\x7b2:header-value\x7d\"" },
   { keyword := "add-headers"
     usage := "add-headers \x7b\"header-name1\": \"header-value1\", ... \x7d"
     description :=
       "Adds a list of headers to the current Selenium session. Input is in the "
       ++ "form of a JSON object."
     kind := .call
     template :=
       "add-headers \x7b \"$\x7b1:header-name1\x7d\": "
       ++ "\"$\x7b2:header-value1\x7d\" \x7d" },
   { keyword := "click"
     usage := "click \"selector\""
     description := "Invokes a standard click event on the selector specified."
     kind := .call
     template := "click \"$\x7b1:selector\x7d\"" },
   { keyword := "click-at-position"
     usage := "click-at-position \"x-coordinate\" \"y-coordinate\""
     description :=
       "For very specific cases where you have a known X and Y coordinate and "
       ++ "need to click at exactly that location, use this."
     kind := .call
     template :=
       "click-at-position \"$\x7b1:x-coordinate\x7d\" \"$\x7b2:y-coordinate\x7d\"" },
   { keyword := "click-exp"
     usage := "click-exp 'selector'"
     description :=
       "Experimental alternative to click, this utilizes javascript. Use this if "
       ++ "click does not fit your needs."
     kind := .call
     template := "click-exp '$\x7b1:selector\x7d'" },
   { keyword := "close-current-tab"
     usage := "close-current-tab"
     description :=
       "Instructs selenium to close the current tab. This will terminate the "
       ++ "current Selenium instance if there is only one open tab."
     kind := .call
     template := "close-current-tab" },
   { keyword := "fill-text"
     usage := "fill-text \"selector\" \"value\""
     description := "Fills the 'value' attribute of the specified selector."
     kind := .call
     template := "fill-text \"$\x7b1:selector\x7d\" \"$\x7b2:value\x7d\"" },
   { keyword := "fill-text-exp"
     usage := "fill-text-exp \"selector\" \"value\""
     description :=
       "An experimental version of fill-text that utilizes JavaScript. Try this "
       ++ "if fill-text doesn't work for your needs."
     kind := .call
     template := "fill-text-exp \"$\x7b1:selector\x7d\" \"$\x7b2:value\x7d\"" },
   { keyword := "open-new-tab"
     usage := "open-new-tab"
     description := "Instructs the current Selenium instance to open a new tab."
     kind := .call
     template := "open-new-tab" },
   { keyword := "save-as-html"
     usage := "save-as-html \"file.html\""
     description := "Saves the current page's source to the HTML file specified."
     kind := .call
     template := "save-as-html \"$\x7b1:file.html\x7d\"" },
   { keyword := "start-javascript"
     usage := "start-javascript ... end-javascript"
     description := "Inserts a JavaScript code block structure."
     kind := .snippet
     template := "start-javascript\n\n// Insert your js code here\n\nend-javascript" },
   { keyword := "take-screenshot"
     usage := "take-screenshot \"file.png\""
     description := "Saves a screenshot of the current page to the PNG file specified."
     kind := .call
     template := "take-screenshot \"$\x7b1:file.png\x7d\"" }]

/-!
# Values of arguments

A proxy template closes the quotes of the feature and opens those of its
argument; the outer quotes are the ones that the user has typed.
-/

def browserEntries : List ArgumentValue :=
  [{ value := "chrome"
     detail := "Google Chrome"
     description := none
     kind := .value
     template := "chrome" },
   { value := "firefox"
     detail := "Mozilla Firefox (default)"
     description := none
     kind := .value
     template := "firefox" }]

def featureEntries : List ArgumentValue :=
  [{ value := "disable-ssl"
     detail := "Disable SSL Validation"
     description := none
     kind := .value
     template := "disable-ssl" },
   { value := "disable-pycache"
     detail := "Disable __pycache__"
     description := none
     kind := .value
     template := "disable-pycache" },
   { value := "use-http-proxy"
     detail := "HTTP Proxy with Args"
     description := some "Format: \"USER:PASS@IP:PORT\" or \"NULL:NULL@IP:PORT\""
     kind := .snippet
     template := "use-http-proxy\" \"$\x7b1:USER:PASS@IP:PORT\x7d" },
   { value := "use-https-proxy"
     detail := "HTTPS Proxy with Args"
     description := some "Format: \"USER:PASS@IP:PORT\" or \"NULL:NULL@IP:PORT\""
     kind := .snippet
     template := "use-https-proxy\" \"$\x7b1:USER:PASS@IP:PORT\x7d" },
   { value := "use-socks4-proxy"
     detail := "SOCKS4 Proxy"
     description := none
     kind := .snippet
     template := "use-socks4-proxy\" \"$\x7b1:USER:PASS@IP:PORT\x7d" },
   { value := "use-socks5-proxy"
     detail := "SOCKS5 Proxy"
     description := none
     kind := .snippet
     template := "use-socks5-proxy\" \"$\x7b1:USER:PASS@IP:PORT\x7d" }]

/-!
# The catalogs
-/

def commands : Catalog Command :=
  ⟨"command", commandEntries, by decide +kernel⟩

def browsers : Catalog ArgumentValue :=
  ⟨"browser", browserEntries, by decide +kernel⟩

def features : Catalog ArgumentValue :=
  ⟨"feature", featureEntries, by decide +kernel⟩

def fault? : Option Catalog.Fault :=
  Catalog.fault? commands.name commands.entries
    <|> Catalog.fault? browsers.name browsers.entries
    <|> Catalog.fault? features.name features.entries

theorem fault?_eq_none : fault? = none := by
  rw [fault?, commands.faultless, browsers.faultless, features.faultless]
  rfl

def argumentsOf? (command : String) : Option (Catalog ArgumentValue) :=
  if command = browserCommand then some browsers
  else if command = featureCommand then some features
  else none

end Vocabulary
end ScriptAssist
