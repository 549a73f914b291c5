import AppDriver.Lifecycle.Protocol

/-!
The documented callback order of every kind of component. Active steps are callbacks that may come
at any time while the component lives; only the chains are guaranteed.
-/

namespace AppDriver

namespace Phase

/-- The steps of a phase, given as method names with parameter types. -/
def steps (phase : Phase) (methods : List (String × List String)) : List LifecycleStep :=
  methods.map fun (name, params) => ⟨{ name, params := params.map (⟨·⟩) }, phase⟩

end Phase

namespace Protocol

/-- A protocol with the steps of the three phases and an edge between neighbours of each chain of
step indices. -/
def phased (kind : ComponentKind) (create active teardown : List (String × List String))
    (chains : List (List Nat)) : Protocol :=
  { kind
    steps := Phase.create.steps create ++ Phase.active.steps active ++
      Phase.teardown.steps teardown
    edges := chains.flatMap links }

private def bundle := "android.os.Bundle"
private def intent := "android.content.Intent"
private def configuration := "android.content.res.Configuration"

/-- Activities: created and started, resumed, then paused, stopped and destroyed. -/
def activity : Protocol :=
  phased .activity
    [("onCreate", [bundle]), ("onStart", []), ("onRestoreInstanceState", [bundle]),
     ("onPostCreate", [bundle])]
    [("onResume", []), ("onPostResume", []), ("onNewIntent", [intent]),
     ("onActivityResult", ["int", "int", intent]),
     ("onCreateOptionsMenu", ["android.view.Menu"]),
     ("onOptionsItemSelected", ["android.view.MenuItem"]),
     ("onConfigurationChanged", [configuration]), ("onWindowFocusChanged", ["boolean"]),
     ("onUserInteraction", []), ("onBackPressed", []), ("onLowMemory", [])]
    [("onPause", []), ("onSaveInstanceState", [bundle]), ("onStop", []), ("onRestart", []),
     ("onDestroy", [])]
    [[0, 1, 2, 3], [4, 5], [15, 16, 17, 18, 19]]

/-- Services: created, bound or started, destroyed. -/
def service : Protocol :=
  phased .service
    [("onCreate", [])]
    [("onBind", [intent]), ("onUnbind", [intent]), ("onRebind", [intent]),
     ("onStartCommand", [intent, "int", "int"]), ("onStart", [intent, "int"]),
     ("onConfigurationChanged", [configuration]), ("onTaskRemoved", [intent]),
     ("onTrimMemory", ["int"]), ("onLowMemory", [])]
    [("onDestroy", [])]
    [[1, 2, 3]]

/-- Broadcast receivers have a single callback. -/
def broadcastReceiver : Protocol :=
  phased .broadcastReceiver [] [("onReceive", ["android.content.Context", intent])] [] []

private def uri := "android.net.Uri"
private def contentValues := "android.content.ContentValues"
private def string := "java.lang.String"
private def strings := "java.lang.String[]"

/-- Content providers: created, queried and changed, shut down. -/
def contentProvider : Protocol :=
  phased .contentProvider
    [("onCreate", [])]
    [("query", [uri, strings, string, strings, string]), ("insert", [uri, contentValues]),
     ("update", [uri, contentValues, string, strings]), ("delete", [uri, string, strings]),
     ("getType", [uri]), ("onConfigurationChanged", [configuration]), ("onLowMemory", [])]
    [("shutdown", [])]
    []

/-- The application object. -/
def application : Protocol :=
  phased .application
    [("onCreate", [])]
    [("onConfigurationChanged", [configuration]), ("onTrimMemory", ["int"]), ("onLowMemory", [])]
    [("onTerminate", [])]
    []

/-- Fragments of the framework and of the support libraries share one order. -/
def fragment (kind : ComponentKind) : Protocol :=
  phased kind
    [("onAttach", ["android.content.Context"]), ("onCreate", [bundle]),
     ("onCreateView", ["android.view.LayoutInflater", "android.view.ViewGroup", bundle]),
     ("onViewCreated", ["android.view.View", bundle]), ("onActivityCreated", [bundle]),
     ("onViewStateRestored", [bundle]), ("onStart", [])]
    [("onResume", []), ("onActivityResult", ["int", "int", intent]),
     ("onCreateOptionsMenu", ["android.view.Menu", "android.view.MenuInflater"]),
     ("onOptionsItemSelected", ["android.view.MenuItem"]), ("onHiddenChanged", ["boolean"]),
     ("onConfigurationChanged", [configuration]), ("onLowMemory", [])]
    [("onPause", []), ("onSaveInstanceState", [bundle]), ("onStop", []), ("onDestroyView", []),
     ("onDestroy", []), ("onDetach", [])]
    [[0, 1, 2, 3, 4, 5, 6], [14, 15, 16, 17, 18, 19]]

/-- The built-in protocol of a kind. Plain listeners have no lifecycle. -/
def builtIn : ComponentKind → Protocol
  | .application => application
  | .activity => activity
  | .service => service
  | .broadcastReceiver => broadcastReceiver
  | .contentProvider => contentProvider
  | .fragment => fragment .fragment
  | .supportFragment => fragment .supportFragment
  | .plainListener => { kind := .plainListener }

end Protocol
end AppDriver
