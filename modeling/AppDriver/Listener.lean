import AppDriver.Signature

/-!
The catalog of framework callback interfaces, by qualified name. An entry replaces an earlier one of
the same name.
-/

namespace AppDriver

/-- A callback interface of the framework. -/
structure ListenerInterface where
  name : TypeName
  methods : List Signature
deriving DecidableEq, Repr

/-- Known interfaces, each name at most once when built with `register`. -/
structure ListenerCatalog where
  interfaces : List ListenerInterface := []
deriving DecidableEq, Repr

namespace ListenerCatalog

/-- Adds an interface, in place of the one of its name if there is one. -/
def register (c : ListenerCatalog) (i : ListenerInterface) : ListenerCatalog :=
  ⟨i :: c.interfaces.filter (·.name != i.name)⟩

def get? (c : ListenerCatalog) (name : TypeName) : Option ListenerInterface :=
  c.interfaces.find? (·.name == name)

/-- The methods of an interface, none for an unknown one. -/
def methodsOf (c : ListenerCatalog) (name : TypeName) : List Signature :=
  ((c.get? name).map (·.methods)).getD []

def contains (c : ListenerCatalog) (name : TypeName) : Bool := (c.get? name).isSome
def size (c : ListenerCatalog) : Nat := c.interfaces.length
def isEmpty (c : ListenerCatalog) : Bool := c.interfaces.isEmpty

private def interface (name : String) (methods : List (String × List String)) :
    ListenerInterface :=
  ⟨⟨name⟩, methods.map fun (name, params) => { name, params := params.map (⟨·⟩) }⟩

private def view := "android.view.View"

/-- The interfaces of the framework that are known from the start. -/
def android : ListenerCatalog :=
  ⟨[interface "android.view.View.OnClickListener" [("onClick", [view])],
    interface "android.view.View.OnLongClickListener" [("onLongClick", [view])],
    interface "android.view.View.OnTouchListener"
      [("onTouch", [view, "android.view.MotionEvent"])],
    interface "android.view.View.OnKeyListener"
      [("onKey", [view, "int", "android.view.KeyEvent"])],
    interface "android.view.View.OnFocusChangeListener" [("onFocusChange", [view, "boolean"])],
    interface "android.widget.CompoundButton.OnCheckedChangeListener"
      [("onCheckedChanged", ["android.widget.CompoundButton", "boolean"])],
    interface "android.widget.AdapterView.OnItemClickListener"
      [("onItemClick", ["android.widget.AdapterView", view, "int", "long"])],
    interface "android.widget.AdapterView.OnItemSelectedListener"
      [("onItemSelected", ["android.widget.AdapterView", view, "int", "long"]),
       ("onNothingSelected", ["android.widget.AdapterView"])],
    interface "android.text.TextWatcher"
      [("beforeTextChanged", ["java.lang.CharSequence", "int", "int", "int"]),
       ("onTextChanged", ["java.lang.CharSequence", "int", "int", "int"]),
       ("afterTextChanged", ["android.text.Editable"])],
    interface "android.view.SurfaceHolder.Callback"
      [("surfaceCreated", ["android.view.SurfaceHolder"]),
       ("surfaceChanged", ["android.view.SurfaceHolder", "int", "int", "int"]),
       ("surfaceDestroyed", ["android.view.SurfaceHolder"])],
    interface "android.content.DialogInterface.OnClickListener"
      [("onClick", ["android.content.DialogInterface", "int"])],
    interface "android.content.SharedPreferences.OnSharedPreferenceChangeListener"
      [("onSharedPreferenceChanged",
        ["android.content.SharedPreferences", "java.lang.String"])],
    interface "android.content.ComponentCallbacks"
      [("onConfigurationChanged", ["android.content.res.Configuration"]), ("onLowMemory", [])],
    interface "android.content.ComponentCallbacks2"
      [("onConfigurationChanged", ["android.content.res.Configuration"]), ("onLowMemory", []),
       ("onTrimMemory", ["int"])],
    interface "android.hardware.Camera.PictureCallback"
      [("onPictureTaken", ["byte[]", "android.hardware.Camera"])],
    interface "android.hardware.Camera.PreviewCallback"
      [("onPreviewFrame", ["byte[]", "android.hardware.Camera"])],
    interface "android.hardware.Camera.ShutterCallback" [("onShutter", [])],
    interface "android.location.LocationListener"
      [("onLocationChanged", ["android.location.Location"]),
       ("onStatusChanged", ["java.lang.String", "int", "android.os.Bundle"]),
       ("onProviderEnabled", ["java.lang.String"]),
       ("onProviderDisabled", ["java.lang.String"])],
    interface "android.hardware.SensorEventListener"
      [("onSensorChanged", ["android.hardware.SensorEvent"]),
       ("onAccuracyChanged", ["android.hardware.Sensor", "int"])],
    interface "java.lang.Runnable" [("run", [])]]⟩

end ListenerCatalog
end AppDriver
