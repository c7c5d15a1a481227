import ScriptAssist.Json.Shape

/-!
# What clients say about themselves

In its handshake a client describes in detail what it is capable of.  The server
offers the same to every client, so the details do not matter to it, but a
handshake in which one of them has an unexpected shape is refused as a whole.
This module holds the shapes of the handshake and of the smaller descriptions
that go with other messages.
-/

namespace ScriptAssist
namespace ClientShape

open Json (Shape)

/-!
# Recurring parts

Fields that may be missing or have to be there, and the descriptions that many
capabilities share.
-/

def may (name : String) (shape : Shape) : String × Shape :=
  (name, .optional shape)

def must (name : String) (shape : Shape) : String × Shape :=
  (name, shape)

def can (name : String) : String × Shape :=
  may name .boolean

def part (name : String) (fields : List (String × Shape)) : String × Shape :=
  may name (.record fields)

def dynamic : String × Shape :=
  can "dynamicRegistration"

def plain (name : String) : String × Shape :=
  part name [dynamic]

def refreshing (name : String) : String × Shape :=
  part name [can "refreshSupport"]

def linking (name : String) : String × Shape :=
  part name [dynamic, can "linkSupport"]

def kinds (name : String) : String × Shape :=
  part name [may "valueSet" (.listOf .integer)]

def markups (name : String) : String × Shape :=
  may name (.listOf (.oneOf ["plaintext", "markdown"]))

-- The tags that a client knows; a truth value stands for all or none.
def tags : String × Shape :=
  ("tagSupport",
    .omissible (.either .boolean (.record [must "valueSet" (.listOf .integer)])))

def resolving : String × Shape :=
  part "resolveSupport" [must "properties" (.listOf .string)]

/-!
# Capabilities
-/

def workspace : Shape :=
  .record [
    can "applyEdit",
    part "workspaceEdit" [
      can "documentChanges",
      may "resourceOperations" (.listOf (.oneOf ["create", "rename", "delete"])),
      may "failureHandling"
        (.oneOf ["abort", "transactional", "textOnlyTransactional", "undo"]),
      can "normalizesLineEndings",
      part "changeAnnotationSupport" [can "groupsOnLabel"]],
    plain "didChangeConfiguration",
    part "didChangeWatchedFiles" [dynamic, can "relativePatternSupport"],
    part "symbol" [dynamic, kinds "symbolKind", tags, resolving],
    plain "executeCommand",
    can "workspaceFolders",
    can "configuration",
    refreshing "semanticTokens",
    refreshing "codeLens",
    part "fileOperations" [
      dynamic, can "didCreate", can "willCreate", can "didRename", can "willRename",
      can "didDelete", can "willDelete"],
    refreshing "inlineValue",
    refreshing "inlayHint",
    refreshing "diagnostic"]

def completion : List (String × Shape) :=
  [dynamic,
   part "completionItem" [
     can "snippetSupport",
     can "commitCharactersSupport",
     markups "documentationFormat",
     can "deprecatedSupport",
     can "preselectSupport",
     tags,
     can "insertReplaceSupport",
     resolving,
     part "insertTextModeSupport" [must "valueSet" (.listOf .integer)],
     can "labelDetailsSupport"],
   kinds "completionItemKind",
   can "contextSupport",
   may "insertTextMode" .integer,
   part "completionList" [may "itemDefaults" (.listOf .string)]]

def semanticTokens : List (String × Shape) :=
  [dynamic,
   must "requests" (.record [
     can "range",
     may "full" (.either .boolean (.object [can "delta"]))]),
   must "tokenTypes" (.listOf .string),
   must "tokenModifiers" (.listOf .string),
   must "formats" (.listOf .string),
   can "overlappingTokenSupport",
   can "multilineTokenSupport",
   can "serverCancelSupport",
   can "augmentsSyntaxTokens"]

def textDocument : Shape :=
  .record [
    part "synchronization" [
      dynamic, can "willSave", can "willSaveWaitUntil", can "didSave"],
    part "completion" completion,
    part "hover" [dynamic, markups "contentFormat"],
    part "signatureHelp" [
      dynamic,
      part "signatureInformation" [
        markups "documentationFormat",
        part "parameterInformation" [can "labelOffsetSupport"],
        can "activeParameterSupport"],
      can "contextSupport"],
    plain "references",
    plain "documentHighlight",
    part "documentSymbol" [
      dynamic, kinds "symbolKind", can "hierarchicalDocumentSymbolSupport", tags],
    plain "formatting",
    plain "rangeFormatting",
    plain "onTypeFormatting",
    linking "declaration",
    linking "definition",
    linking "typeDefinition",
    linking "implementation",
    part "codeAction" [
      dynamic,
      part "codeActionLiteralSupport" [
        must "codeActionKind" (.record [must "valueSet" (.listOf .string)])],
      can "isPreferredSupport",
      can "disabledSupport",
      can "dataSupport",
      resolving,
      can "honorsChangeAnnotations"],
    plain "codeLens",
    part "documentLink" [dynamic, can "tooltipSupport"],
    plain "colorProvider",
    part "rename" [
      dynamic,
      can "prepareSupport",
      may "prepareSupportDefaultBehavior" .integer,
      can "honorsChangeAnnotations"],
    part "publishDiagnostics" [
      can "relatedInformation",
      tags,
      can "versionSupport",
      can "codeDescriptionSupport",
      can "dataSupport"],
    part "foldingRange" [
      dynamic,
      may "rangeLimit" .natural,
      can "lineFoldingOnly",
      part "foldingRangeKind" [
        may "valueSet" (.listOf (.oneOf ["comment", "imports", "region"]))],
      part "foldingRange" [can "collapsedText"]],
    plain "selectionRange",
    plain "linkedEditingRange",
    plain "callHierarchy",
    part "semanticTokens" semanticTokens,
    plain "moniker",
    plain "typeHierarchy",
    plain "inlineValue",
    part "inlayHint" [dynamic, resolving],
    part "diagnostic" [dynamic, can "relatedDocumentSupport"]]

def window : Shape :=
  .record [
    can "workDoneProgress",
    part "showMessage" [
      part "messageActionItem" [can "additionalPropertiesSupport"]],
    part "showDocument" [must "support" .boolean]]

def general : Shape :=
  .record [
    part "regularExpressions" [must "engine" .string, may "version" .string],
    part "markdown" [
      must "parser" .string,
      may "version" .string,
      may "allowedTags" (.listOf .string)],
    part "staleRequestSupport" [
      must "cancel" .boolean,
      must "retryOnContentModified" (.listOf .string)],
    may "positionEncodings" (.listOf .string)]

def capabilities : Shape :=
  .record [
    may "workspace" workspace,
    may "textDocument" textDocument,
    may "window" window,
    may "general" general,
    may "experimental" .anything]

/-!
# Messages

The handshake, and what goes with questions: the token by which a client follows
the work on one, and what made it ask for completions.
-/

section Handshake

variable (isUri : String → Bool)

def handshakeFields : List (String × Shape) :=
  [may "processId" .natural,
   may "rootPath" .string,
   may "rootUri" (.stringThat isUri),
   may "initializationOptions" .anything,
   must "capabilities" capabilities,
   may "trace" (.oneOf ["off", "messages", "verbose"]),
   may "workspaceFolders"
     (.listOf (.record [must "uri" (.stringThat isUri), must "name" .string])),
   part "clientInfo" [must "name" .string, may "version" .string],
   may "locale" .string]

def handshake : Shape :=
  .record (handshakeFields isUri)

end Handshake

def token : Shape :=
  .either .string .integer

def trigger : Shape :=
  .record [must "triggerKind" .integer, may "triggerCharacter" .string]

end ClientShape
end ScriptAssist
