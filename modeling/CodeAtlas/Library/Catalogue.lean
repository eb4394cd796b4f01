import CodeAtlas.Json.Units

/-! The libraries whose public members are known. -/

namespace CodeAtlas.Library

abbrev Name := Json.Units

structure Api where
  name : String
  functions : List String := []
  classes : List String := []
  constants : List String := []
  types : List String := []
  hooks : List String := []
  version : String := "unknown"
  deriving DecidableEq, Repr, Inhabited

def Api.memberCount (api : Api) : Nat :=
  api.functions.length + api.classes.length + api.constants.length + api.types.length
    + api.hooks.length

def known : List Api :=
  [
    { name := "react"
      functions := ["createElement", "createContext", "forwardRef", "memo", "lazy", "Suspense",
        "Fragment", "StrictMode", "cloneElement", "isValidElement"]
      classes := ["Component", "PureComponent"]
      constants := ["version"]
      types := ["FC", "ReactNode", "ReactElement", "Props", "RefObject"]
      hooks := ["useState", "useEffect", "useContext", "useReducer", "useCallback", "useMemo",
        "useRef", "useImperativeHandle", "useLayoutEffect", "useDebugValue", "useDeferredValue",
        "useTransition", "useId", "useSyncExternalStore"] },
    { name := "react-dom"
      functions := ["render", "unmountComponentAtNode", "findDOMNode", "createPortal"]
      constants := ["version"]
      types := ["Root"] },
    { name := "next"
      functions := ["getServerSideProps", "getStaticProps", "getStaticPaths", "generateMetadata",
        "generateViewport"]
      types := ["NextPage", "NextPageContext", "GetServerSideProps", "GetStaticProps",
        "GetStaticPaths", "NextApiRequest", "NextApiResponse"] },
    { name := "next/router"
      functions := ["useRouter", "withRouter"]
      types := ["NextRouter"] },
    { name := "next/navigation"
      functions := ["useRouter", "usePathname", "useSearchParams", "useParams", "redirect",
        "notFound", "permanentRedirect"] },
    { name := "lodash"
      functions := ["map", "filter", "reduce", "find", "forEach", "clone", "cloneDeep", "merge",
        "omit", "pick", "get", "set", "has", "isArray", "isObject", "isString", "isNumber",
        "isEmpty", "isEqual", "debounce", "throttle", "capitalize", "camelCase", "kebabCase",
        "snakeCase", "startCase", "chunk", "compact", "concat", "difference", "intersection",
        "union", "uniq", "zip", "flatten", "groupBy", "keyBy", "orderBy", "sortBy"]
      constants := ["VERSION"] },
    { name := "axios"
      functions := ["get", "post", "put", "delete", "patch", "head", "options", "request"]
      classes := ["Cancel", "CancelToken"]
      constants := ["defaults"]
      types := ["AxiosResponse", "AxiosError", "AxiosRequestConfig"] },
    { name := "express"
      functions := ["Router", "static", "json", "urlencoded"]
      classes := ["Express"]
      types := ["Request", "Response", "NextFunction", "Application"] },
    { name := "@emotion/react"
      functions := ["css", "jsx", "Global", "ClassNames", "keyframes"]
      types := ["Interpolation", "SerializedStyles"] },
    { name := "styled-components"
      functions := ["styled", "css", "keyframes", "createGlobalStyle", "ThemeProvider"]
      types := ["DefaultTheme", "StyledComponent"] },
    { name := "date-fns"
      functions := ["format", "parse", "addDays", "subDays", "addMonths", "subMonths", "addYears",
        "subYears", "differenceInDays", "differenceInMonths", "isAfter", "isBefore", "isEqual",
        "isValid", "startOfDay", "endOfDay"] },
    { name := "uuid"
      functions := ["v1", "v3", "v4", "v5", "validate", "version"] },
    { name := "zod"
      functions := ["z", "object", "string", "number", "boolean", "array", "union", "optional"]
      classes := ["ZodSchema", "ZodError"]
      types := ["ZodType", "ZodString", "ZodNumber", "ZodBoolean"] }]

def entry? (name : Name) : Option Api := known.find? fun api => Json.units api.name = name

def basePackage (name : Name) : Name := name.takeWhile (· != '/'.toNat.toUInt16)

/-- The library that a name stands for. An unknown path inside a package stands for the package; a
scoped name, which begins with `@`, stands only for itself. -/
def find? (name : Name) : Option Api :=
  match entry? name with
  | some api => some api
  | none => if name.head? = some '@'.toNat.toUInt16 then none else entry? (basePackage name)

end CodeAtlas.Library
